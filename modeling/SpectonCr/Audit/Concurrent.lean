import SpectonCr.Audit.TamperEvidence
import SpectonCr.Base.Run

/-! Concurrent `append` transactions under `READ COMMITTED`. -/

namespace SpectonCr.Audit

/-- What `append` has read of the keyring before it opens its transaction. -/
structure AppendCall where
  key : Bytes
  keyId : String
  event : AuditEvent

/-- A transaction of `append`, by the statement it has reached. -/
inductive Transaction where
  | opened (call : AppendCall)
  | waiting (call : AppendCall) (tip : Option PgRow)
  | selected (call : AppendCall) (tip : Option PgRow)
  | inserted (tip : Option PgRow) (row : PgRow)

/-- The row whose lock a transaction holds; an empty table gives it none. -/
def Transaction.locked : Transaction → Option Int
  | .opened _ => none
  | .waiting _ _ => none
  | .selected _ tip => tip.map PgRow.id
  | .inserted tip _ => tip.map PgRow.id

/-- The committed log and the transactions in flight. -/
structure PgDatabase where
  audit : PgChainedAudit
  transactions : Table Nat Transaction

def PgDatabase.isLocked (database : PgDatabase) (tip : Option PgRow) : Bool :=
  tip.any fun row => database.transactions.entries.any fun entry => entry.2.locked = some row.id

def PgDatabase.put (database : PgDatabase) (number : Nat) (transaction : Transaction) :
    PgDatabase :=
  { database with transactions := database.transactions.insert number transaction }

def PgDatabase.close (database : PgDatabase) (number : Nat) : PgDatabase :=
  { database with transactions := database.transactions.erase number }

inductive AppendStep where
  | start (number : Nat) (event : AuditEvent)
  | select (number : Nat)
  | lock (number : Nat)
  | insert (number : Nat)
  | commit (number : Nat)
  | rollback (number : Nat)

section Steps

variable (lib : HashLib) (pg : PgLib)

/-- One statement of one transaction. One that cannot be taken, as for a lock that is held, changes
nothing. -/
def PgDatabase.step (database : PgDatabase) : AppendStep → PgDatabase
  | .start number event =>
    match database.transactions.lookup number, database.audit.keyring.activeKey with
    | none, .ok key => database.put number (.opened ⟨key, database.audit.keyring.activeId, event⟩)
    | _, _ => database
  | .select number =>
    match database.transactions.lookup number with
    | some (.opened call) => database.put number (.waiting call (newest? database.audit.rows))
    | _ => database
  | .lock number =>
    match database.transactions.lookup number with
    | some (.waiting call tip) =>
      if database.isLocked tip then database else database.put number (.selected call tip)
    | _ => database
  | .insert number =>
    match database.transactions.lookup number with
    | some (.selected call tip) =>
      match computeRowHash lib call.key (prevHashOf tip) call.event call.keyId with
      | .error _ => database.close number
      | .ok rowHash =>
        let row := insertedRow pg database.audit.sequence call.event (prevHashOf tip) rowHash
          call.keyId
        { database.put number (.inserted tip row) with
          audit := { database.audit with sequence := database.audit.sequence + 1 } }
    | _ => database
  | .commit number =>
    match database.transactions.lookup number with
    | some (.inserted _ row) =>
      { database.close number with
        audit := { database.audit with rows := database.audit.rows ++ [row] } }
    | _ => database
  | .rollback number => database.close number

/-- The steps of one `append` from its call to its commit. -/
def appendSteps (number : Nat) (event : AuditEvent) : List AppendStep :=
  [.start number event, .select number, .lock number, .insert number, .commit number]

/-- `verify_chain` from the first row accepts the log up to an identifier. -/
def PgChainedAudit.Accepted (audit : PgChainedAudit) (last : Int) : Prop :=
  ∃ verdict, audit.verifyChain lib pg 1 last = .ok verdict ∧ verdict.ok = true

theorem PgChainedAudit.not_accepted {audit : PgChainedAudit}
    (failed : (audit.verifyChain lib pg 1 last).toOption.map ChainVerdict.ok = some false) :
    ¬ audit.Accepted lib pg last := by
  rintro ⟨verdict, reported, success⟩
  rw [reported] at failed
  cases success.symm.trans (Option.some.inj failed)

/-- An event whose columns give its payload back. -/
structure AuditEvent.Stable (event : AuditEvent) : Prop where
  time : timestamptz event.time = event.time
  subject : ∀ subject, event.subject = some subject → pg.jsonb subject.toJson = subject.toJson
  attributes : pg.jsonb (.obj event.attributes) = .obj event.attributes

/-- A new event is stable, and a transaction commits while the row it read as the
tip is still the newest one. -/
def PgDatabase.Undisturbed (database : PgDatabase) : AppendStep → Prop
  | .start _ event => event.Stable pg
  | .commit number => ∀ tip row, database.transactions.lookup number = some (.inserted tip row) →
      newest? database.audit.rows = tip
  | _ => True

/-- A verified log between transactions, its rows listed by their identifiers. -/
structure PgDatabase.Quiet (database : PgDatabase) : Prop where
  sequenced : Sequenced database.audit.rows database.audit.sequence
  positive : ∀ row ∈ database.audit.rows, 1 ≤ row.id
  next : 1 ≤ database.audit.sequence
  accepted : database.audit.Accepted lib pg (largestId (database.audit.rows.map PgRow.id))
  idle : database.transactions = ∅

def AppendCall.Fits (audit : PgChainedAudit) (call : AppendCall) : Prop :=
  audit.keyring.get call.keyId = .ok call.key ∧ call.event.Stable pg

/-- What a transaction in flight has prepared: an inserted row comes after its tip
and passes the checks of the verification there. -/
def Transaction.Fits (audit : PgChainedAudit) : Transaction → Prop
  | .opened call => call.Fits pg audit
  | .waiting call tip => call.Fits pg audit ∧ ∀ row ∈ tip, row.id < audit.sequence
  | .selected call tip => call.Fits pg audit ∧ ∀ row ∈ tip, row.id < audit.sequence
  | .inserted tip row =>
    1 ≤ row.id ∧ row.id < audit.sequence ∧ (∀ last ∈ tip, last.id < row.id) ∧
      Verified lib (rowFromDb pg) audit.keyring.get (prevHashOf tip) [row]

structure PgDatabase.Sound (database : PgDatabase) : Prop where
  sequenced : Sequenced database.audit.rows database.audit.sequence
  positive : ∀ row ∈ database.audit.rows, 1 ≤ row.id
  next : 1 ≤ database.audit.sequence
  verified : Verified lib (rowFromDb pg) database.audit.keyring.get genesisPrev database.audit.rows
  fits : ∀ number transaction, database.transactions.lookup number = some transaction →
    transaction.Fits lib pg database.audit

variable {lib pg}

section Rows

variable {resolveKey : String → Except AuditError Bytes}

theorem Verified.beginning {Stored : Type} {read : Stored → Except AuditError AuditRow} {prevHash : Bytes}
    {rows rest : List Stored} (verified : Verified lib read resolveKey prevHash (rows ++ rest)) :
    Verified lib read resolveKey prevHash rows := by
  induction rows generalizing prevHash with
  | nil => trivial
  | cons stored more ih =>
    obtain ⟨row, key, reading, resolved, linked, later⟩ := verified
    exact ⟨row, key, reading, resolved, linked, ih later⟩

theorem Verified.concat (verified : Verified lib (rowFromDb pg) resolveKey prevHash rows)
    (last : Verified lib (rowFromDb pg) resolveKey ((rows.getLast?.map PgRow.rowHash).getD prevHash) [new]) :
    Verified lib (rowFromDb pg) resolveKey prevHash (rows ++ [new]) := by
  induction rows generalizing prevHash with
  | nil => exact last
  | cons stored rest ih =>
    obtain ⟨row, key, reading, resolved, linked, later⟩ := verified
    refine ⟨row, key, reading, resolved, linked, ih later ?_⟩
    rw [(rowFromDb_ok reading).1]
    cases rest with
    | nil => exact last
    | cons next more =>
      rw [List.getLast?_cons_cons] at last
      simpa [List.getLast?_cons] using last

/-- In a verified log the newest row's hash has the length that `append` expects. -/
theorem Verified.prevHashOf_getLast (verified : Verified lib (rowFromDb pg) resolveKey prevHash rows)
    (final : rows.getLast? = some last) : prevHashOf (some last) = last.rowHash := by
  induction rows generalizing prevHash with
  | nil => cases final
  | cons stored rest ih =>
    obtain ⟨row, key, reading, _, linked, later⟩ := verified
    cases rest with
    | nil =>
      have same : stored = last := Option.some.inj final
      subst same
      rw [prevHashOf, if_pos]
      rw [← (rowFromDb_ok reading).1]
      exact computeRowHash_length linked.hashed
    | cons next more => exact ih later (by simpa using final)

/-- A stable event comes back from its columns without the actor's role, which no
payload has. -/
theorem rowFromDb_insertedRow (stable : event.Stable pg) (id : Int) (prevHash rowHash : Bytes)
    (keyId : String) :
    ∃ row, rowFromDb pg (insertedRow pg id event prevHash rowHash keyId) = .ok row ∧
      row.event.payload keyId = event.payload keyId := by
  refine ⟨⟨id, { event with actor := { event.actor with role := none } }, tenantOf event,
    some prevHash, rowHash, keyId⟩, ?_, rfl⟩
  obtain ⟨time, category, action, actor, subject, outcome, attributes⟩ := event
  obtain ⟨whole, documents, values⟩ := stable
  simp only [rowFromDb, insertedRow, Category.parse_asStr]
  simp only at whole documents values
  rw [whole, values]
  cases subject with
  | none => cases outcome <;> rfl
  | some subject =>
    rw [Option.map_some, documents subject rfl]
    simp only [Subject.ofJson_toJson]
    cases outcome <;> rfl

theorem verified_insertedRow {event : AuditEvent} (stable : event.Stable pg) {id : Int}
    {key prevHash rowHash : Bytes} {keyId : String} (resolved : resolveKey keyId = .ok key)
    (computed : computeRowHash lib key prevHash event keyId = .ok rowHash) :
    Verified lib (rowFromDb pg) resolveKey prevHash [insertedRow pg id event prevHash rowHash keyId] := by
  obtain ⟨row, reading, payload⟩ := rowFromDb_insertedRow stable id prevHash rowHash keyId
  obtain ⟨hash, stored, signer, _⟩ := rowFromDb_ok reading
  have keyed : row.hmacKeyId = keyId := signer
  refine ⟨row, key, reading, by rw [keyed]; exact resolved, ⟨?_, ?_⟩, trivial⟩
  · intro storedPrev present
    exact (Option.some.inj (stored.symm.trans present)).symm
  · rw [hash, keyed]
    obtain ⟨canonical, written, digest⟩ := computeRowHash_ok.mp computed
    exact computeRowHash_ok.mpr ⟨canonical, by rw [payload]; exact written, digest⟩

/-- The rows up to an identifier are a beginning of the rows in order. -/
theorem filter_id_isPrefix {rows : List PgRow} (ordered : rows.Pairwise fun one two => one.id ≤ two.id)
    (last : Int) : ∃ rest, rows = (rows.filter fun row => row.id ≤ last) ++ rest := by
  induction rows with
  | nil => exact ⟨[], rfl⟩
  | cons row rest ih =>
    obtain ⟨above, later⟩ := List.pairwise_cons.mp ordered
    by_cases within : row.id ≤ last
    · obtain ⟨remaining, split⟩ := ih later
      refine ⟨remaining, ?_⟩
      rw [List.filter_cons_of_pos (by simpa using within), List.cons_append, ← split]
    refine ⟨row :: rest, ?_⟩
    have none : ((row :: rest).filter fun one => one.id ≤ last) = [] := by
      rw [List.filter_eq_nil_iff]
      intro one member
      rcases List.mem_cons.mp member with rfl | listed
      · simpa using within
      · have greater := above one listed
        simp only [decide_eq_true_eq]
        omega
    rw [none, List.nil_append]

theorem Sequenced.le_last {rows : List PgRow} {sequence : Int} (ids : Sequenced rows sequence)
    {last : PgRow} (final : rows.getLast? = some last) : ∀ row ∈ rows, row.id ≤ last.id := by
  obtain ⟨front, rfl⟩ := List.getLast?_eq_some_iff.mp final
  intro row member
  rcases List.mem_append.mp member with earlier | same
  · exact (List.pairwise_append.mp ids.ordered).2.2 row earlier last (List.mem_singleton_self last)
  · obtain rfl := List.mem_singleton.mp same
    exact le_rfl

end Rows

theorem Transaction.Fits.mono {audit later : PgChainedAudit} {transaction : Transaction}
    (fits : transaction.Fits lib pg audit) (keys : later.keyring = audit.keyring)
    (grown : audit.sequence ≤ later.sequence) : transaction.Fits lib pg later := by
  cases transaction with
  | opened call => simpa only [Transaction.Fits, AppendCall.Fits, keys] using fits
  | waiting call tip | selected call tip =>
    simp only [Transaction.Fits, AppendCall.Fits, keys] at fits ⊢
    exact ⟨fits.1, fun row member => lt_of_lt_of_le (fits.2 row member) grown⟩
  | inserted tip row =>
    simp only [Transaction.Fits, keys] at fits ⊢
    exact ⟨fits.1, lt_of_lt_of_le fits.2.1 grown, fits.2.2⟩

namespace PgDatabase

variable {database : PgDatabase}

theorem Sound.put (sound : database.Sound lib pg) {number : Nat} {transaction : Transaction}
    (fits : transaction.Fits lib pg database.audit) : (database.put number transaction).Sound lib pg := by
  refine ⟨sound.sequenced, sound.positive, sound.next, sound.verified, ?_⟩
  intro other found present
  rcases Table.lookup_insert_cases present with ⟨_, rfl⟩ | ⟨_, before⟩
  · exact fits
  · exact sound.fits other found before

theorem Sound.close (sound : database.Sound lib pg) (number : Nat) :
    (database.close number).Sound lib pg := by
  refine ⟨sound.sequenced, sound.positive, sound.next, sound.verified, ?_⟩
  intro other found present
  exact sound.fits other found (Table.lookup_erase_cases present).2

theorem Sound.draw (sound : database.Sound lib pg) :
    Sound lib pg { database with
      audit := { database.audit with sequence := database.audit.sequence + 1 } } := by
  have grown : database.audit.sequence ≤ database.audit.sequence + 1 := by omega
  refine ⟨sound.sequenced.mono grown, sound.positive, le_trans sound.next grown, sound.verified, ?_⟩
  intro number transaction present
  exact (sound.fits number transaction present).mono rfl grown

theorem Sound.commit (sound : database.Sound lib pg) {row : PgRow}
    (fits : (Transaction.inserted (newest? database.audit.rows) row).Fits lib pg database.audit) :
    Sound lib pg { database with
      audit := { database.audit with rows := database.audit.rows ++ [row] } } := by
  obtain ⟨positive, drawn, after, linked⟩ := fits
  rw [sound.sequenced.newest] at after linked
  have before : Sequenced database.audit.rows row.id := by
    refine ⟨sound.sequenced.ordered, ?_⟩
    intro old member
    cases final : database.audit.rows.getLast? with
    | none =>
      rw [List.getLast?_eq_none_iff.mp final] at member
      cases member
    | some last =>
      have least := sound.sequenced.le_last final old member
      have greater := after last final
      omega
  refine ⟨(before.append rfl).mono (by simpa using drawn), ?_, sound.next, ?_, ?_⟩
  · intro one member
    rcases List.mem_append.mp member with old | new
    · exact sound.positive one old
    · obtain rfl := List.mem_singleton.mp new
      exact positive
  · refine sound.verified.concat ?_
    cases final : database.audit.rows.getLast? with
    | none => simpa [final, prevHashOf] using linked
    | some last =>
      rw [final, sound.verified.prevHashOf_getLast final] at linked
      exact linked
  · intro number transaction present
    exact (sound.fits number transaction present).mono rfl le_rfl

theorem Sound.step (sound : database.Sound lib pg) (event : AppendStep)
    (undisturbed : database.Undisturbed pg event) : (database.step lib pg event).Sound lib pg := by
  cases event with
  | start number event =>
    simp only [PgDatabase.step]
    split
    · rename_i key _ active
      exact sound.put ⟨active, undisturbed⟩
    · exact sound
  | select number =>
    simp only [PgDatabase.step]
    split
    · rename_i call present
      refine sound.put ⟨sound.fits number _ present, ?_⟩
      intro row newest
      exact sound.sequenced.ahead row (mem_orderById.mp (List.mem_of_getLast? newest))
    · exact sound
  | lock number =>
    simp only [PgDatabase.step]
    split
    · rename_i call tip present
      split
      · exact sound
      · have fits := sound.fits number _ present
        exact sound.put ⟨fits.1, fits.2⟩
    · exact sound
  | insert number =>
    simp only [PgDatabase.step]
    split
    · rename_i call tip present
      obtain ⟨⟨resolved, stable⟩, older⟩ := sound.fits number _ present
      split
      · exact sound.close number
      · rename_i rowHash computed
        refine sound.draw.put ⟨sound.next, ?_, older, verified_insertedRow stable resolved computed⟩
        simp [insertedRow]
    · exact sound
  | commit number =>
    simp only [PgDatabase.step]
    split
    · rename_i tip row present
      have fits := sound.fits number _ present
      obtain rfl := undisturbed tip row present
      exact (sound.commit fits).close number
    · exact sound
  | rollback number => exact sound.close number

theorem Quiet.sound (quiet : database.Quiet lib pg) : database.Sound lib pg := by
  obtain ⟨verdict, reported, success⟩ := quiet.accepted
  have verified := PgChainedAudit.verified_of_verifyChain quiet.positive reported success
  rw [orderById_eq_self quiet.sequenced.ordered] at verified
  refine ⟨quiet.sequenced, quiet.positive, quiet.next, verified, ?_⟩
  intro number transaction present
  rw [quiet.idle] at present
  cases present

theorem Sound.accepted (sound : database.Sound lib pg) (last : Int) :
    database.audit.Accepted lib pg last := by
  have slice : (database.audit.rows.filter fun row => (1 : Int) ≤ row.id && row.id ≤ last) =
      database.audit.rows.filter fun row => row.id ≤ last := by
    refine List.filter_congr ?_
    intro row member
    simp [sound.positive row member]
  have ordered : orderById (database.audit.rows.filter fun row => row.id ≤ last) =
      database.audit.rows.filter fun row => row.id ≤ last :=
    orderById_eq_self (sound.sequenced.ordered.filter _)
  obtain ⟨rest, split⟩ := filter_id_isPrefix sound.sequenced.ordered last
  have verified := sound.verified
  rw [split] at verified
  simp only [PgChainedAudit.Accepted, PgChainedAudit.verifyChain, slice, ordered, lt_self_iff_false, if_false]
  exact (verifyRows_ok_iff rfl).mpr verified.beginning

private theorem isLocked_waiting (log : PgChainedAudit) (number : Nat) (call : AppendCall)
    (tip : Option PgRow) :
    PgDatabase.isLocked ⟨log, AList.insert number (.waiting call tip) ∅⟩ tip = false := by
  cases tip <;> simp [PgDatabase.isLocked, Transaction.locked]

/-- A transaction that no other one interrupts is the sequential `append`, and leaves nothing if that
fails. -/
theorem alone_eq_append (audit : PgChainedAudit) (number : Nat) (event : AuditEvent) :
    Run.after (PgDatabase.step lib pg) ⟨audit, ∅⟩ (appendSteps number event) =
      ⟨((audit.append lib pg event).map Prod.snd).toOption.getD audit, ∅⟩ := by
  have closed : ∀ transaction : Transaction,
      (AList.insert number transaction ∅).erase number = (∅ : Table Nat Transaction) := by
    intro transaction
    apply AList.ext
    simp [AList.erase]
  have absent : AList.lookup number (∅ : Table Nat Transaction) = none := rfl
  simp only [Run.after, appendSteps, List.foldl_cons, List.foldl_nil, PgChainedAudit.append]
  cases active : audit.keyring.activeKey with
  | error failure => simp only [PgDatabase.step, active, absent]; rfl
  | ok key =>
    cases computed : computeRowHash lib key (prevHashOf (newest? audit.rows)) event
        audit.keyring.activeId <;>
      simp only [PgDatabase.step, PgDatabase.put, PgDatabase.close, absent, active, AList.lookup_insert,
        AList.insert_insert, isLocked_waiting, Bool.false_eq_true, if_false, Except.bind, computed, closed] <;>
      rfl

/-- Such a transaction commits while its tip is the newest row. -/
theorem alone_undisturbed (idle : database.transactions = ∅) (number : Nat) (stable : event.Stable pg) :
    Run.Along (PgDatabase.step lib pg) (PgDatabase.Undisturbed pg) database (appendSteps number event) := by
  obtain ⟨log, transactions⟩ := database
  simp only at idle
  subst idle
  refine ⟨stable, trivial, trivial, trivial, ?_, trivial⟩
  intro tip row present
  have absent : AList.lookup number (∅ : Table Nat Transaction) = none := rfl
  cases active : log.keyring.activeKey with
  | error failure => simp [PgDatabase.step, active, absent] at present
  | ok key =>
    cases computed : computeRowHash lib key (prevHashOf (newest? log.rows)) event log.keyring.activeId with
    | error failure =>
      simp only [PgDatabase.step, PgDatabase.put, PgDatabase.close, active, absent, computed,
        isLocked_waiting, AList.lookup_insert, AList.insert_insert, AList.lookup_erase,
        Bool.false_eq_true, if_false, reduceCtorEq] at present
    | ok rowHash =>
      simp only [PgDatabase.step, PgDatabase.put, active, absent, computed, isLocked_waiting,
        AList.lookup_insert, AList.insert_insert, Bool.false_eq_true, if_false, Option.some.injEq,
        Transaction.inserted.injEq] at present ⊢
      exact present.1

end PgDatabase

end Steps

/-- From a verified log, appends that commit while their tip is newest give a log that
`verify_chain` accepts, in every interleaving. -/
theorem undisturbed_appends_accepted (lib : HashLib) (pg : PgLib) (database : PgDatabase)
    (quiet : database.Quiet lib pg) (steps : List AppendStep)
    (undisturbed : Run.Along (PgDatabase.step lib pg) (PgDatabase.Undisturbed pg) database steps) (last : Int) :
    (Run.after (PgDatabase.step lib pg) database steps).audit.Accepted lib pg last := by
  have sound := Run.after_invariant (PgDatabase.Sound lib pg)
    (fun _ event sound condition => sound.step event condition) quiet.sound undisturbed
  exact sound.accepted last

def demoPg : PgLib := ⟨id, fun _ => "invalid type"⟩

def demoDatabase : PgDatabase :=
  { audit :=
      { rows := [insertedRow demoPg 1 demoEvent genesisPrev demoHash "v1"]
        sequence := 2
        keyring := ⟨"v1", AList.singleton "v1" [0x6b]⟩ }
    transactions := ∅ }

/-- Both transactions take the first row for the tip; the second one waits for its
lock until the first one has committed. -/
def forkedSteps : List AppendStep :=
  [.start 1 demoEvent, .start 2 demoEvent, .select 1, .select 2, .lock 1, .lock 2, .insert 1,
    .commit 1, .lock 2, .insert 2, .commit 2]

theorem demoDatabase_quiet : demoDatabase.Quiet demoLib demoPg := by
  refine ⟨⟨List.pairwise_singleton _ _, ?_⟩, ?_, by decide, ?_, rfl⟩
  · simp [demoDatabase, insertedRow]
  · simp [demoDatabase, insertedRow]
  · obtain ⟨verdict, reported, success⟩ := exists_ok_of_map
      (show (demoDatabase.audit.verifyChain demoLib demoPg 1
        (largestId (demoDatabase.audit.rows.map PgRow.id))).toOption.map ChainVerdict.ok =
          some true by decide +kernel)
    exact ⟨verdict, reported, success⟩

/-- An append that nothing disturbs extends the verified log. -/
theorem lone_append_accepted :
    demoDatabase.Quiet demoLib demoPg ∧ (Run.after (PgDatabase.step demoLib demoPg) demoDatabase
        (appendSteps 1 demoEvent)).audit.rows.length = 2 ∧
      (Run.after (PgDatabase.step demoLib demoPg) demoDatabase
        (appendSteps 1 demoEvent)).audit.Accepted demoLib demoPg 2 := by
  refine ⟨demoDatabase_quiet, by decide +kernel, ?_⟩
  refine undisturbed_appends_accepted demoLib demoPg demoDatabase demoDatabase_quiet _ ?_ 2
  refine PgDatabase.alone_undisturbed rfl 1 ⟨rfl, ?_, rfl⟩
  intro subject present
  cases present

/-- The waiting transaction links its row to the first one too, and the log fails the verification.
-/
theorem waiting_append_forks : demoDatabase.Quiet demoLib demoPg ∧
      ¬ (Run.after (PgDatabase.step demoLib demoPg) demoDatabase forkedSteps).audit.Accepted
        demoLib demoPg 3 := by
  exact ⟨demoDatabase_quiet, PgChainedAudit.not_accepted _ _ (by decide +kernel)⟩

end SpectonCr.Audit
