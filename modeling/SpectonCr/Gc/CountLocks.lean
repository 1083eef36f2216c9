import SpectonCr.Gc.Bookkeeping
import SpectonCr.Gc.Statements

namespace SpectonCr.Gc

open Storage Interleaving

/-- The edges that a transaction of `add_refs` has inserted, or has found. -/
def Stage.counted : Stage → List Edge
  | .insertPath call past _ _ => past.map call.edge
  | .insertEdge call past _ _ => past.map call.edge
  | .bumpCount call past blob _ => (past ++ [blob]).map call.edge
  | .commitRefs call past => past.map call.edge
  | _ => []

def Stage.adding : Stage → Bool
  | .insertPath .. => true
  | .insertEdge .. => true
  | .bumpCount .. => true
  | .commitRefs .. => true
  | _ => false

/-- The edge whose count comes next. -/
def Stage.Awaits (edge : Edge) : Stage → Prop
  | .bumpCount call _ blob _ => call.edge blob = edge
  | _ => False

/-- A reaper that has found the count at zero. -/
def Stage.Reaps (key : BlobKey) : Stage → Prop
  | .selectPaths reaped _ => reaped = key
  | .deleteObject reaped _ _ _ => reaped = key
  | .deletePaths reaped _ => reaped = key
  | .deleteCount reaped _ => reaped = key
  | .insertReap reaped _ => reaped = key
  | .commitReap reaped _ => reaped = key
  | _ => False

/-- The row is there with a count above zero. -/
def Positive (found : Option RefcountRow) : Prop := ∃ row, found = some row ∧ 0 < row.refcount

theorem bumpRow_positive (now : Time) (size : Int) (old : Option RefcountRow) :
    Positive (some (bumpRow now size old)) := by
  refine ⟨_, rfl, ?_⟩
  cases old with
  | none => exact Nat.one_pos
  | some row => exact Nat.succ_pos row.refcount

/-- The edges and the counts, with the transactions that hold rows of them. -/
structure CountsKept (refs : LockedTable Edge Unit) (counts : LockedTable BlobKey RefcountRow)
    (stages : Nat → Option Stage) : Prop where
  backed : ∀ edge ∈ refs.committed, Positive (counts.committed.lookup edge.key)
  reapers : ∀ number stage key, stages number = some stage → stage.Reaps key →
    (∃ left, counts.locks.lookup key = some (number, left)) ∧
      ∃ row, counts.committed.lookup key = some row ∧ row.refcount = 0
  holders : ∀ key number left, counts.locks.lookup key = some (number, left) →
    ∃ stage, stages number = some stage ∧ (stage.Reaps key ∨ (stage.adding = true ∧ Positive left))
  edges : ∀ edge number left, refs.locks.lookup edge = some (number, left) →
    left = some () ∧ ∃ stage, stages number = some stage ∧ stage.adding = true ∧ (stage.Awaits edge ∨
        ∃ row, counts.locks.lookup edge.key = some (number, some row) ∧ 0 < row.refcount)
  passed : ∀ number stage, stages number = some stage → ∀ edge ∈ stage.counted, refs.Keeps number edge

/-- Everything an operation does to the edges and the counts, with the stage that follows. -/
inductive CountEffect (number : Nat) (refs : LockedTable Edge Unit)
    (counts : LockedTable BlobKey RefcountRow) :
    Stage → LockedTable Edge Unit → LockedTable BlobKey RefcountRow → Stage ⊕ Outcome → Prop
  | none {stage rest : Stage} (counted : rest.counted = stage.counted)
      (adding : rest.adding = stage.adding) (reaps : ∀ key, rest.Reaps key ↔ stage.Reaps key)
      (awaits : ∀ edge, stage.Awaits edge → rest.Awaits edge) :
      CountEffect number refs counts stage refs counts (.inl rest)
  | known {call : RefCall} {past rest : List BlobDescriptor} {blob : BlobDescriptor}
      {after : LockedTable Edge Unit}
      (inserted : refs.insertIgnore number (call.edge blob) () = some (false, after)) :
      CountEffect number refs counts (.insertEdge call past blob rest) after counts
        (.inl (.nextBlob call (past ++ [blob]) rest))
  | insert {call : RefCall} {past rest : List BlobDescriptor} {blob : BlobDescriptor}
      {after : LockedTable Edge Unit}
      (inserted : refs.insertIgnore number (call.edge blob) () = some (true, after)) :
      CountEffect number refs counts (.insertEdge call past blob rest) after counts
        (.inl (.bumpCount call past blob rest))
  | bump {call : RefCall} {past rest : List BlobDescriptor} {blob : BlobDescriptor}
      {after : LockedTable BlobKey RefcountRow}
      (bumped : counts.upsert number (call.key blob) (bumpRow call.now blob.size) = some after) :
      CountEffect number refs counts (.bumpCount call past blob rest) refs after
        (.inl (.nextBlob call (past ++ [blob]) rest))
  | lock {key : BlobKey} {bytes : Int} {row : RefcountRow}
      {after : LockedTable BlobKey RefcountRow}
      (locked : counts.selectForUpdate number key = some (some row, after))
      (zero : row.refcount = 0) :
      CountEffect number refs counts (.lockCount key bytes) refs after (.inl (.selectPaths key bytes))
  | delete {key : BlobKey} {bytes : Int} {after : LockedTable BlobKey RefcountRow}
      (deleted : counts.deleteSeen number (· = key) = some after) :
      CountEffect number refs counts (.deleteCount key bytes) refs after (.inl (.insertReap key bytes))
  | added {call : RefCall} {past : List BlobDescriptor} :
      CountEffect number refs counts (.commitRefs call past) (refs.commit number)
        (counts.commit number) (.inr (.added call past))
  | reaped {key : BlobKey} {bytes : Int} :
      CountEffect number refs counts (.commitReap key bytes) (refs.commit number)
        (counts.commit number) (.inr (.reaped key))
  | spared {key : BlobKey} {bytes : Int} {after : LockedTable BlobKey RefcountRow}
      {row : Option RefcountRow}
      (locked : counts.selectForUpdate number key = some (row, after)) :
      CountEffect number refs counts (.lockCount key bytes) (refs.rollback number)
        (after.rollback number) (.inr (.spared key))

@[simp] theorem counted_nextBlob (call : RefCall) (past rest : List BlobDescriptor) :
    (Stage.nextBlob call past rest).counted = past.map call.edge := by
  cases rest <;> rfl

@[simp] theorem adding_nextBlob (call : RefCall) (past rest : List BlobDescriptor) :
    (Stage.nextBlob call past rest).adding = true := by
  cases rest <;> rfl

@[simp] theorem reaps_nextBlob (call : RefCall) (past rest : List BlobDescriptor)
    (key : BlobKey) : ¬(Stage.nextBlob call past rest).Reaps key := by
  cases rest <;> exact id

private theorem nextObject_effect (bytes : Int) (paths : List BlobPath)
    (counted : stage.counted = []) (adding : stage.adding = false)
    (reaps : ∀ other, stage.Reaps other ↔ key = other) (awaits : ∀ edge, ¬stage.Awaits edge) :
    CountEffect number refs counts stage refs counts (.inl (.nextObject key bytes paths)) := by
  refine .none ?_ ?_ ?_ fun edge waits => absurd waits (awaits edge)
  · rw [counted]
    cases paths <;> rfl
  · rw [adding]
    cases paths <;> rfl
  · intro other
    rw [reaps other]
    cases paths <;> exact Iff.rfl

theorem operate_counts (number : Nat) (stage : Stage) (database : Database) :
    CountEffect number database.manifestBlobRefs database.blobRefcounts stage
      (stage.operate number database).1.manifestBlobRefs
      (stage.operate number database).1.blobRefcounts (stage.operate number database).2 := by
  have wait : ∀ stage, CountEffect number database.manifestBlobRefs database.blobRefcounts stage
      database.manifestBlobRefs database.blobRefcounts (.inl stage) :=
    fun stage => .none rfl rfl (fun _ => Iff.rfl) fun _ => id
  cases stage with
  | insertPath call past blob rest | deletePaths key bytes =>
    simp only [Stage.operate]
    split
    · exact wait _
    · exact .none rfl rfl (fun _ => Iff.rfl) fun _ => id
  | insertEdge call past blob rest =>
    simp only [Stage.operate]
    split
    · exact wait _
    rename_i inserted after done
    cases inserted with
    | true => exact .insert done
    | false => exact .known done
  | bumpCount call past blob rest =>
    simp only [Stage.operate]
    split
    · exact wait _
    · rename_i bumped
      exact .bump bumped
  | commitRefs call past => exact .added
  | lockCount key bytes =>
    simp only [Stage.operate]
    split
    · exact wait _
    rename_i row after locked
    split
    · rename_i zero
      obtain ⟨found, rfl, none⟩ := Option.map_eq_some_iff.mp zero
      exact .lock locked none
    · exact .spared locked
  | selectPaths key bytes | deleteObject key bytes path rest =>
    exact nextObject_effect bytes _ rfl rfl (fun _ => Iff.rfl) fun _ => id
  | deleteCount key bytes =>
    simp only [Stage.operate]
    split
    · exact wait _
    · rename_i deleted
      exact .delete deleted
  | insertReap key bytes => exact .none rfl rfl (fun _ => Iff.rfl) fun _ => id
  | commitReap key bytes => exact .reaped

open LockedTable

section Kept

variable {refs refs' : LockedTable Edge Unit} {counts counts' : LockedTable BlobKey RefcountRow}
  {stages later : Nat → Option Stage} {number : Nat} {stage : Stage} {rest : Stage ⊕ Outcome}

/-- A row that no transaction but the moving one can hold is not held by another. -/
private theorem CountsKept.adding_or_reaps (kept : CountsKept refs counts stages)
    (found : stages number = some stage) (held : counts.locks.lookup key = some (number, left)) :
    stage.Reaps key ∨ (stage.adding = true ∧ Positive left) := by
  obtain ⟨flight, flying, holds⟩ := kept.holders key number left held
  cases found.symm.trans flying
  exact holds

private theorem CountsKept.ended (kept : CountsKept refs counts stages)
    (others : ∀ other, other ≠ number → later other = stages other) (gone : later number = none)
    (refsLocks : ∀ edge, refs'.locks.lookup edge = (refs.release number).lookup edge)
    (countLocks : ∀ key, counts'.locks.lookup key = (counts.release number).lookup key)
    (backed : ∀ edge ∈ refs'.committed, Positive (counts'.committed.lookup edge.key))
    (untouched : ∀ key other left, other ≠ number → counts.locks.lookup key = some (other, left) →
      counts'.committed.lookup key = counts.committed.lookup key)
    (keeps : ∀ other edge, other ≠ number → refs.Keeps other edge → refs'.Keeps other edge) :
    CountsKept refs' counts' later := by
  have apart : ∀ other flight, later other = some flight → other ≠ number := by
    rintro other flight flying rfl
    rw [gone] at flying
    cases flying
  have countLocked : ∀ key other left, counts'.locks.lookup key = some (other, left) →
      other ≠ number ∧ counts.locks.lookup key = some (other, left) := by
    intro key other left held
    rw [countLocks, lookup_release, Option.filter_eq_some_iff] at held
    exact ⟨by simpa using held.2, held.1⟩
  have countHeld : ∀ key other left, other ≠ number → counts.locks.lookup key = some (other, left) →
      counts'.locks.lookup key = some (other, left) := by
    intro key other left distinct held
    rw [countLocks, lookup_release, held]
    simp [Option.filter, distinct]
  refine ⟨backed, ?_, ?_, ?_, ?_⟩
  · intro other flight key flying reaps
    have distinct := apart other flight flying
    rw [others other distinct] at flying
    obtain ⟨⟨left, held⟩, row, zero⟩ := kept.reapers other flight key flying reaps
    refine ⟨⟨left, countHeld key other left distinct held⟩, row, ?_, zero.2⟩
    rw [untouched key other left distinct held, zero.1]
  · intro key other left held
    obtain ⟨distinct, before⟩ := countLocked key other left held
    rw [others other distinct]
    exact kept.holders key other left before
  · intro edge other left held
    rw [refsLocks, lookup_release, Option.filter_eq_some_iff] at held
    have distinct : other ≠ number := by simpa using held.2
    obtain ⟨some, flight, flying, adding, counted⟩ := kept.edges edge other left held.1
    refine ⟨some, flight, (others other distinct).trans flying, adding, ?_⟩
    rcases counted with awaits | ⟨row, locked, positive⟩
    · exact .inl awaits
    · exact .inr ⟨row, countHeld _ other _ distinct locked, positive⟩
  · intro other flight flying edge member
    have distinct := apart other flight flying
    rw [others other distinct] at flying
    exact keeps other edge distinct (kept.passed other flight flying edge member)

theorem CountsKept.rollback (kept : CountsKept refs counts stages)
    (others : ∀ other, other ≠ number → later other = stages other) (gone : later number = none) :
    CountsKept (refs.rollback number) (counts.rollback number) later :=
  kept.ended others gone (fun _ => rfl) (fun _ => rfl) kept.backed (fun _ _ _ _ _ => rfl)
    fun _ _ apart keeps => keeps.rollback apart

private theorem lookup_commit_of_other (apart : other ≠ number)
    (held : counts.locks.lookup key = some (other, left)) :
    (counts.commit number).committed.lookup key = counts.committed.lookup key :=
  lookup_snapshot_of_not_held (by simp [held, apart])

private theorem CountsKept.commit (kept : CountsKept refs counts stages)
    (others : ∀ other, other ≠ number → later other = stages other) (gone : later number = none)
    (backed : ∀ edge ∈ refs.snapshot number, Positive ((counts.snapshot number).lookup edge.key)) :
    CountsKept (refs.commit number) (counts.commit number) later :=
  kept.ended others gone (fun _ => rfl) (fun _ => rfl) backed
    (fun _ _ _ apart held => lookup_commit_of_other apart held)
    fun _ _ apart keeps => keeps.commit apart

/-- An edge that a transaction sees is committed, or its own. -/
private theorem mem_snapshot_cases (seen : edge ∈ refs.snapshot number) :
    (∃ left, refs.locks.lookup edge = some (number, left)) ∨ edge ∈ refs.committed := by
  by_cases held : ∃ left, refs.locks.lookup edge = some (number, left)
  · exact .inl held
  have free := not_exists.mp held
  rw [← AList.lookup_isSome, lookup_snapshot_of_not_held free, AList.lookup_isSome] at seen
  exact .inr seen

section

variable (kept : CountsKept refs counts stages)

include kept

private theorem CountsKept.added_backed (found : stages number = some (.commitRefs call past)) (edge : Edge)
    (seen : edge ∈ refs.snapshot number) : Positive ((counts.snapshot number).lookup edge.key) := by
  rcases mem_snapshot_cases seen with ⟨left, own⟩ | committed
  · obtain ⟨_, flight, flying, _, counted⟩ := kept.edges edge number left own
    cases found.symm.trans flying
    rcases counted with awaits | ⟨row, locked, positive⟩
    · exact awaits.elim
    · exact ⟨row, lookup_snapshot_of_held locked, positive⟩
  · by_cases held : ∃ left, counts.locks.lookup edge.key = some (number, left)
    · obtain ⟨left, locked⟩ := held
      rw [lookup_snapshot_of_held locked]
      rcases kept.adding_or_reaps found locked with reaps | ⟨_, positive⟩
      · exact reaps.elim
      · exact positive
    · rw [lookup_snapshot_of_not_held (not_exists.mp held)]
      exact kept.backed edge committed

/-- The row that a reaper takes away is the row of no committed edge. -/
private theorem CountsKept.reaped_backed (found : stages number = some (.commitReap key bytes)) (edge : Edge)
    (seen : edge ∈ refs.snapshot number) : Positive ((counts.snapshot number).lookup edge.key) := by
  rcases mem_snapshot_cases seen with ⟨left, own⟩ | committed
  · obtain ⟨_, flight, flying, adding, _⟩ := kept.edges edge number left own
    cases found.symm.trans flying
    cases adding
  by_cases held : ∃ left, counts.locks.lookup edge.key = some (number, left)
  · obtain ⟨left, locked⟩ := held
    rcases kept.adding_or_reaps found locked with reaps | ⟨adding, _⟩
    · obtain ⟨_, row, present, zero⟩ := kept.reapers number _ edge.key found reaps
      obtain ⟨other, same, positive⟩ := kept.backed edge committed
      cases present.symm.trans same
      omega
    · cases adding
  · rw [lookup_snapshot_of_not_held (not_exists.mp held)]
    exact kept.backed edge committed

private theorem CountsKept.own_edge (found : stages number = some stage)
    (held : refs.locks.lookup edge = some (number, left)) :
    left = some () ∧ stage.adding = true ∧ (stage.Awaits edge ∨
      ∃ row, counts.locks.lookup edge.key = some (number, some row) ∧ 0 < row.refcount) := by
  obtain ⟨some, flight, flying, adding, counted⟩ := kept.edges edge number left held
  cases found.symm.trans flying
  exact ⟨some, adding, counted⟩

variable (others : ∀ other, other ≠ number → later other = stages other)
include others

/-- A transaction that has moved on, when nothing is committed and the rows of the others are
as they were. -/
private theorem CountsKept.moved (moved : later number = some next) (sameRefs : refs'.committed = refs.committed)
    (sameCounts : counts'.committed = counts.committed)
    (held : ∀ key other left, other ≠ number → counts.locks.lookup key = some (other, left) →
      counts'.locks.lookup key = some (other, left))
    (reaps : ∀ key, next.Reaps key → (∃ left, counts'.locks.lookup key = some (number, left)) ∧
      ∃ row, counts.committed.lookup key = some row ∧ row.refcount = 0)
    (countLocks : ∀ key holder left, counts'.locks.lookup key = some (holder, left) →
      (holder ≠ number ∧ counts.locks.lookup key = some (holder, left)) ∨ (holder = number ∧
      (next.Reaps key ∨ (next.adding = true ∧ Positive left))))
    (refLocks : ∀ edge holder left, refs'.locks.lookup edge = some (holder, left) → (holder ≠ number ∧
      refs.locks.lookup edge = some (holder, left)) ∨ (holder = number ∧ left = some () ∧
      next.adding = true ∧ (next.Awaits edge ∨
      ∃ row, counts'.locks.lookup edge.key = some (number, some row) ∧ 0 < row.refcount)))
    (keeps : ∀ other edge, refs.Keeps other edge → refs'.Keeps other edge)
    (own : ∀ edge ∈ next.counted, refs'.Keeps number edge) : CountsKept refs' counts' later := by
  refine ⟨?_, ?_, ?_, ?_, ?_⟩
  · rw [sameRefs, sameCounts]
    exact kept.backed
  · intro other flight key flying reaping
    rw [sameCounts]
    by_cases same : other = number
    · subst same
      cases moved.symm.trans flying
      exact reaps key reaping
    · rw [others other same] at flying
      obtain ⟨⟨left, locked⟩, zero⟩ := kept.reapers other flight key flying reaping
      exact ⟨⟨left, held key other left same locked⟩, zero⟩
  · intro key holder left locked
    rcases countLocks key holder left locked with ⟨apart, before⟩ | ⟨rfl, holds⟩
    · rw [others holder apart]
      exact kept.holders key holder left before
    · exact ⟨next, moved, holds⟩
  · intro edge holder left locked
    rcases refLocks edge holder left locked with ⟨apart, before⟩ | ⟨rfl, some, adding, counted⟩
    · obtain ⟨some, flight, flying, adding, counted⟩ := kept.edges edge holder left before
      refine ⟨some, flight, (others holder apart).trans flying, adding, ?_⟩
      rcases counted with awaits | ⟨row, inside, positive⟩
      · exact .inl awaits
      · exact .inr ⟨row, held _ holder _ apart inside, positive⟩
    · exact ⟨some, next, moved, adding, counted⟩
  · intro other flight flying edge member
    by_cases same : other = number
    · subst same
      cases moved.symm.trans flying
      exact own edge member
    · rw [others other same] at flying
      exact keeps other edge (kept.passed other flight flying edge member)

private theorem CountsKept.insertEdge {call : RefCall} {past rest : List BlobDescriptor}
    {blob : BlobDescriptor} {next : Stage} {inserted : Bool}
    (found : stages number = some (.insertEdge call past blob rest))
    (moved : later number = some next)
    (done : refs.insertIgnore number (call.edge blob) () = some (inserted, refs'))
    (counted : next.counted = (past ++ [blob]).map call.edge) (adding : next.adding = true)
    (reaps : ∀ key, ¬next.Reaps key) (awaits : inserted = true → next.Awaits (call.edge blob)) :
    CountsKept refs' counts later := by
  have committed : refs'.committed = refs.committed := by
    obtain ⟨_, ⟨_, same⟩ | ⟨_, same⟩⟩ := insertIgnore_cases done
    · exact congrArg (fun result => result.2.committed) same
    · exact congrArg (fun result => result.2.committed) same
  refine kept.moved others moved committed rfl (fun _ _ _ _ held => held)
    (fun key reaping => absurd reaping (reaps key)) ?_ ?_ ?_ ?_
  · intro key holder left held
    by_cases same : holder = number
    · subst same
      rcases kept.adding_or_reaps found held with reaping | ⟨_, positive⟩
      · exact reaping.elim
      · exact .inr ⟨rfl, .inr ⟨adding, positive⟩⟩
    · exact .inl ⟨same, held⟩
  · intro edge holder left held
    have before : ∀ left, refs.locks.lookup edge = some (holder, left) →
        (holder ≠ number ∧ refs.locks.lookup edge = some (holder, left)) ∨
        (holder = number ∧ left = some () ∧ next.adding = true ∧ (next.Awaits edge ∨
          ∃ row, counts.locks.lookup edge.key = some (number, some row) ∧ 0 < row.refcount)) := by
      intro left held
      by_cases same : holder = number
      · subst same
        obtain ⟨some, _, waits | row⟩ := kept.own_edge found held
        · exact waits.elim
        · exact .inr ⟨rfl, some, adding, .inr row⟩
      · exact .inl ⟨same, held⟩
    obtain ⟨_, ⟨_, same⟩ | ⟨_, same⟩⟩ := insertIgnore_cases done
    · obtain rfl : refs' = refs := congrArg Prod.snd same
      exact before left held
    · obtain rfl : refs' = refs.write number (call.edge blob) (some ()) := congrArg Prod.snd same
      rcases Table.lookup_insert_cases held with ⟨rfl, own⟩ | ⟨_, other⟩
      · cases own
        exact .inr ⟨rfl, rfl, adding, .inl (awaits (congrArg Prod.fst same))⟩
      · exact before left other
  · exact fun other edge keeps => keeps.insertIgnore done
  · intro edge member
    rw [counted, List.map_append, List.mem_append] at member
    rcases member with earlier | new
    · exact (kept.passed number _ found edge earlier).insertIgnore done
    · obtain rfl := List.mem_singleton.mp new
      exact keeps_of_insertIgnore done

private theorem CountsKept.bumpCount {call : RefCall} {past rest : List BlobDescriptor}
    {blob : BlobDescriptor} (found : stages number = some (.bumpCount call past blob rest))
    (moved : later number = some (.nextBlob call (past ++ [blob]) rest))
    (bumped : counts.upsert number (call.key blob) (bumpRow call.now blob.size) = some counts') :
    CountsKept refs counts' later := by
  obtain ⟨free, rfl⟩ := upsert_cases bumped
  obtain ⟨row, written, positive⟩ :=
    bumpRow_positive call.now blob.size ((counts.snapshot number).lookup (call.key blob))
  rw [written]
  have mine : ∀ key, (∃ row, counts.locks.lookup key = some (number, some row) ∧
      0 < row.refcount) ∨ key = call.key blob →
      ∃ left, (counts.write number (call.key blob) (some row)).locks.lookup key =
        some (number, some left) ∧ 0 < left.refcount := by
    intro key holds
    by_cases here : key = call.key blob
    · subst here
      exact ⟨row, lookup_write, positive⟩
    · rw [lookup_write_ne here]
      exact holds.resolve_right here
  refine kept.moved others moved rfl rfl ?_
    (fun key reaping => (reaps_nextBlob _ _ _ _ reaping).elim) ?_ ?_ (fun _ _ keeps => keeps) ?_
  · intro key other left apart held
    have here : key ≠ call.key blob := by
      rintro rfl
      exact apart (eq_of_not_blocked free held)
    rwa [lookup_write_ne here]
  · intro key holder left held
    rcases Table.lookup_insert_cases held with ⟨_, own⟩ | ⟨_, old⟩
    · cases own
      exact .inr ⟨rfl, .inr ⟨adding_nextBlob _ _ _, row, rfl, positive⟩⟩
    · by_cases same : holder = number
      · subst same
        rcases kept.adding_or_reaps found old with reaping | ⟨_, positive⟩
        · exact reaping.elim
        · exact .inr ⟨rfl, .inr ⟨adding_nextBlob _ _ _, positive⟩⟩
      · exact .inl ⟨same, old⟩
  · intro edge holder left held
    by_cases same : holder = number
    · subst same
      obtain ⟨some, _, waits | row⟩ := kept.own_edge found held
      · refine .inr ⟨rfl, some, adding_nextBlob _ _ _, .inr (mine edge.key (.inr ?_))⟩
        rw [← show call.edge blob = edge from waits]
        rfl
      · exact .inr ⟨rfl, some, adding_nextBlob _ _ _, .inr (mine edge.key (.inl row))⟩
    · exact .inl ⟨same, held⟩
  · intro edge member
    rw [counted_nextBlob] at member
    exact kept.passed number _ found edge member

/-- A stage of `reap_blob` has no edges, so that only the counts matter to its next one. -/
private theorem CountsKept.reaperMoved (found : stages number = some stage) (idle : stage.adding = false)
    (moved : later number = some next)
    (none : next.counted = []) (sameCounts : counts'.committed = counts.committed)
    (held : ∀ key other left, other ≠ number → counts.locks.lookup key = some (other, left) →
      counts'.locks.lookup key = some (other, left))
    (reaps : ∀ key, next.Reaps key → (∃ left, counts'.locks.lookup key = some (number, left)) ∧
      ∃ row, counts.committed.lookup key = some row ∧ row.refcount = 0)
    (countLocks : ∀ key holder left, counts'.locks.lookup key = some (holder, left) →
      (holder ≠ number ∧ counts.locks.lookup key = some (holder, left)) ∨ (holder = number ∧
      next.Reaps key)) :
    CountsKept refs counts' later := by
  refine kept.moved others moved rfl sameCounts held reaps ?_ ?_ (fun _ _ keeps => keeps) ?_
  · intro key holder left locked
    rcases countLocks key holder left locked with before | ⟨own, reaping⟩
    · exact .inl before
    · exact .inr ⟨own, .inl reaping⟩
  · intro edge holder left locked
    refine .inl ⟨?_, locked⟩
    rintro rfl
    have adding := (kept.own_edge found locked).2.1
    rw [idle] at adding
    cases adding
  · intro edge member
    rw [none] at member
    cases member

/-- The check of a reaper locks a row whose committed count is zero. -/
private theorem CountsKept.lockCount (found : stages number = some (.lockCount key bytes))
    (moved : later number = some (.selectPaths key bytes))
    (locked : counts.selectForUpdate number key = some (some row, counts'))
    (zero : row.refcount = 0) : CountsKept refs counts' later := by
  have fresh : ∀ key left, counts.locks.lookup key ≠ some (number, left) := by
    intro key left held
    rcases kept.adding_or_reaps found held with reaping | ⟨adding, _⟩
    · exact reaping
    · cases adding
  rcases selectForUpdate_cases locked with ⟨_, impossible⟩ | ⟨seen, present, free, same⟩
  · cases impossible
  obtain ⟨rfl, rfl⟩ : row = seen ∧ counts' = counts.write number key (some seen) := by
    simpa using same
  rw [lookup_snapshot_of_not_held (fresh key)] at present
  refine kept.reaperMoved others found rfl moved rfl rfl ?_ ?_ ?_
  · intro other holder left apart held
    have elsewhere : other ≠ key := by
      rintro rfl
      exact apart (eq_of_not_blocked free held)
    rwa [lookup_write_ne elsewhere]
  · rintro other rfl
    exact ⟨⟨_, lookup_write⟩, row, present, zero⟩
  · intro other holder left held
    rcases Table.lookup_insert_cases held with ⟨rfl, own⟩ | ⟨_, old⟩
    · exact .inr ⟨(congrArg Prod.fst own).symm, rfl⟩
    refine .inl ⟨?_, old⟩
    rintro rfl
    exact fresh other left old

private theorem CountsKept.deleteCount (found : stages number = some (.deleteCount key bytes))
    (moved : later number = some (.insertReap key bytes))
    (deleted : counts.deleteSeen number (· = key) = some counts') : CountsKept refs counts' later := by
  obtain ⟨same, free, locks⟩ := deleteSeen_cases deleted
  refine kept.reaperMoved others found rfl moved rfl same ?_ ?_ ?_
  · intro other holder left apart held
    rw [locks other, if_neg]
    · exact held
    · rintro ⟨seen, chosen⟩
      exact apart (eq_of_not_blocked (free other seen chosen) held)
  · rintro other rfl
    obtain ⟨⟨left, held⟩, zero⟩ := kept.reapers number _ key found rfl
    refine ⟨?_, zero⟩
    rw [locks key]
    split
    · exact ⟨none, rfl⟩
    · exact ⟨left, held⟩
  · intro other holder left held
    rw [locks other] at held
    split at held
    · rename_i chosen
      refine .inr ⟨(congrArg Prod.fst (Option.some.inj held)).symm, ?_⟩
      exact (of_decide_eq_true chosen.2).symm
    by_cases own : holder = number
    · subst own
      rcases kept.adding_or_reaps found held with reaping | ⟨adding, _⟩
      · exact .inr ⟨rfl, reaping⟩
      · cases adding
    · exact .inl ⟨own, held⟩

end

private theorem lookup_release_selectForUpdate
    (locked : counts.selectForUpdate number key = some (row, counts')) :
    counts'.committed = counts.committed ∧
      ∀ other, (counts'.release number).lookup other = (counts.release number).lookup other := by
  rcases selectForUpdate_cases locked with ⟨_, same⟩ | ⟨seen, _, free, same⟩
  · obtain rfl : counts' = counts := congrArg Prod.snd same
    exact ⟨rfl, fun _ => rfl⟩
  obtain rfl : counts' = counts.write number key (some seen) := congrArg Prod.snd same
  refine ⟨rfl, ?_⟩
  intro other
  rw [lookup_release, lookup_release]
  by_cases here : other = key
  · subst here
    rw [lookup_write]
    cases held : counts.locks.lookup other with
    | none => simp [Option.filter]
    | some lock =>
      have own := eq_of_not_blocked free held
      simp [Option.filter, own]
  · rw [lookup_write_ne here]

/-- The invariant is kept by every statement of every transaction. -/
theorem CountsKept.advance (kept : CountsKept refs counts stages) (found : stages number = some stage)
    (others : ∀ other, other ≠ number → later other = stages other) (moved : later number = rest.getLeft?)
    (effect : CountEffect number refs counts stage refs' counts' rest) : CountsKept refs' counts' later := by
  cases effect with
  | @none _ next counted adding reaps awaits =>
    refine kept.moved others moved rfl rfl (fun _ _ _ _ held => held) ?_ ?_ ?_ (fun _ _ keeps => keeps) ?_
    · exact fun key reaping => kept.reapers number stage key found ((reaps key).mp reaping)
    · intro key holder left held
      by_cases own : holder = number
      · subst own
        rcases kept.adding_or_reaps found held with reaping | ⟨busy, positive⟩
        · exact .inr ⟨rfl, .inl ((reaps key).mpr reaping)⟩
        · exact .inr ⟨rfl, .inr ⟨adding.trans busy, positive⟩⟩
      · exact .inl ⟨own, held⟩
    · intro edge holder left held
      by_cases own : holder = number
      · subst own
        obtain ⟨some, busy, waits | row⟩ := kept.own_edge found held
        · exact .inr ⟨rfl, some, adding.trans busy, .inl (awaits edge waits)⟩
        · exact .inr ⟨rfl, some, adding.trans busy, .inr row⟩
      · exact .inl ⟨own, held⟩
    · intro edge member
      rw [counted] at member
      exact kept.passed number stage found edge member
  | known inserted =>
    exact kept.insertEdge others found moved inserted (counted_nextBlob _ _ _)
      (adding_nextBlob _ _ _) (reaps_nextBlob _ _ _) nofun
  | insert inserted =>
    exact kept.insertEdge others found moved inserted rfl rfl (fun _ => id) fun _ => rfl
  | bump bumped => exact kept.bumpCount others found moved bumped
  | lock locked zero => exact kept.lockCount others found moved locked zero
  | delete deleted => exact kept.deleteCount others found moved deleted
  | added => exact kept.commit others moved (kept.added_backed found)
  | reaped => exact kept.commit others moved (kept.reaped_backed found)
  | spared locked =>
    obtain ⟨same, released⟩ := lookup_release_selectForUpdate locked
    refine kept.ended others moved (fun _ => rfl) released ?_ ?_ fun _ _ apart keeps => keeps.rollback apart
    · intro edge member
      rw [show (LockedTable.rollback _ number).committed = counts.committed from same]
      exact kept.backed edge member
    · intro key other left _ _
      exact congrArg (AList.lookup key) same

theorem CountsKept.launched (kept : CountsKept refs counts stages) (unused : stages number = none)
    (others : ∀ other, other ≠ number → later other = stages other)
    (launched : later number = ((transaction number).launch call).getLeft?) :
    CountsKept refs counts later := by
  have apart : ∀ holder stage, stages holder = some stage → holder ≠ number := by
    rintro holder stage flying rfl
    rw [unused] at flying
    cases flying
  have nothing : ∀ stage, later number = some stage → stage.counted = [] ∧ ∀ key, ¬stage.Reaps key := by
    intro stage begun
    rw [launched] at begun
    cases call with
    | addRefs call blobs =>
      cases blobs with
      | nil => cases begun
      | cons blob rest =>
        cases begun
        exact ⟨rfl, fun _ => id⟩
    | reapBlob key bytes =>
      cases begun
      exact ⟨rfl, fun _ => id⟩
  refine ⟨kept.backed, ?_, ?_, ?_, ?_⟩
  · intro other stage key flying reaping
    by_cases same : other = number
    · subst same
      exact absurd reaping ((nothing stage flying).2 key)
    · exact kept.reapers other stage key ((others other same).symm.trans flying) reaping
  · intro key holder left held
    obtain ⟨stage, flying, holds⟩ := kept.holders key holder left held
    exact ⟨stage, (others holder (apart holder stage flying)).trans flying, holds⟩
  · intro edge holder left held
    obtain ⟨some, stage, flying, holds⟩ := kept.edges edge holder left held
    exact ⟨some, stage, (others holder (apart holder stage flying)).trans flying, holds⟩
  · intro other stage flying edge member
    by_cases same : other = number
    · subst same
      rw [(nothing stage flying).1] at member
      cases member
    · exact kept.passed other stage ((others other same).symm.trans flying) edge member

end Kept

end SpectonCr.Gc
