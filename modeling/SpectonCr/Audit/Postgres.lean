import SpectonCr.Audit.Chain
import SpectonCr.Base.Table

/-! `PgChainedAudit`: the log as rows, whose columns hold less than the event. -/

namespace SpectonCr.Audit

/-- A row of `registry_audit_log`. -/
structure PgRow where
  id : Int
  time : Time
  tenant : Option String
  (category action actorSub : String)
  (actorIp actorUa : Option String)
  subject : Option Json
  outcome : String
  errorCode : Option String
  attributes : Json
  prevHash : Option Bytes
  rowHash : Bytes
  hmacKeyId : String

structure Keyring where
  activeId : String
  keys : Table String Bytes

def Keyring.get (keyring : Keyring) (id : String) : Except AuditError Bytes :=
  match keyring.keys.lookup id with
  | none => .error (.unknownKey id)
  | some key => .ok key

def Keyring.activeKey (keyring : Keyring) : Except AuditError Bytes := keyring.get keyring.activeId

def Keyring.rotate (keyring : Keyring) (newId : String) (newKey : Bytes) : Keyring :=
  ⟨newId, keyring.keys.insert newId newKey⟩

/-- What the database and its driver do to values: `jsonb` is what a `JSONB` column
gives back for a document, `rejection` the text for a document of another type. -/
structure PgLib where
  jsonb : Json → Json
  rejection : Json → String

/-- The epoch of `TIMESTAMPTZ`, the year 2000. -/
def pgEpoch : Time := 946684800 * 1000000000

/-- A time as a `TIMESTAMPTZ` column keeps it: whole microseconds from its epoch,
rounded towards it. -/
def timestamptz (time : Time) : Time := pgEpoch + (time - pgEpoch).tdiv 1000 * 1000

def Subject.toJson (subject : Subject) : Json :=
  .obj (([("tenant", subject.tenant), ("project", subject.project), ("repo", subject.repo),
    ("reference", subject.reference), ("digest", subject.digest)].filterMap fun (name, value) =>
      value.map fun text => (name, .str text)))

/-- `serde_json::from_value`; every field has a default. -/
def Subject.ofJson (document : Json) : Option Subject :=
  let fields : Option (List (Option Json)) :=
    match document with
    | .obj _ => some (["tenant", "project", "repo", "reference", "digest"].map document.get)
    | .arr items => if items.length ≤ 5 then some ((List.range 5).map (items[·]?)) else none
    | _ => none
  fields.bind fun values => (values.mapM Json.optionalStr).bind fun texts =>
    match texts with
    | [tenant, project, repo, reference, digest] => some ⟨tenant, project, repo, reference, digest⟩
    | _ => none

theorem Subject.ofJson_toJson (subject : Subject) : Subject.ofJson subject.toJson = some subject := by
  obtain ⟨tenant, project, repo, reference, digest⟩ := subject
  cases tenant <;> cases project <;> cases repo <;> cases reference <;> cases digest <;> rfl

section Rows

variable (lib : HashLib) (pg : PgLib)

def rowFromDb (row : PgRow) : Except AuditError AuditRow :=
  match Category.parse row.category with
  | none =>
    .error (.unavailable ("unknown category in row " ++ toString row.id ++ ": " ++ row.category))
  | some category =>
    let outcome : Except AuditError Outcome :=
      if row.outcome = "success" then .ok .success
      else if row.outcome = "failure" then .ok (.failure (row.errorCode.getD "unknown"))
      else .error (.unavailable ("unknown outcome in row " ++ toString row.id ++ ": " ++ row.outcome))
    outcome.bind fun outcome =>
      let subject : Except AuditError (Option Subject) :=
        match row.subject with
        | none => .ok none
        | some document =>
          match Subject.ofJson document with
          | none => .error (.serde (pg.rejection document))
          | some subject => .ok (some subject)
      subject.bind fun subject =>
        .ok
          { id := row.id
            event :=
              { time := row.time
                category
                action := row.action
                actor := ⟨row.actorSub, none, row.actorIp, row.actorUa⟩
                subject
                outcome
                attributes :=
                  match row.attributes with
                  | .obj fields => fields
                  | _ => [] }
            tenant := row.tenant
            prevHash := row.prevHash
            rowHash := row.rowHash
            hmacKeyId := row.hmacKeyId }

/-- The columns that `INSERT` writes for an event. -/
def insertedRow (id : Int) (event : AuditEvent) (prevHash rowHash : Bytes) (keyId : String) :
    PgRow :=
  { id
    time := timestamptz event.time
    tenant := tenantOf event
    category := event.category.asStr
    action := event.action
    actorSub := event.actor.sub
    actorIp := event.actor.sourceIp
    actorUa := event.actor.ua
    subject := event.subject.map fun subject => pg.jsonb subject.toJson
    outcome := event.outcome.asStr
    errorCode := event.outcome.errorCode
    attributes := pg.jsonb (.obj event.attributes)
    prevHash := some prevHash
    rowHash
    hmacKeyId := keyId }

/-- `ORDER BY id ASC`. -/
def orderById (rows : List PgRow) : List PgRow := rows.insertionSort fun one two => one.id ≤ two.id

/-- `ORDER BY id DESC LIMIT 1`. -/
def newest? (rows : List PgRow) : Option PgRow := (orderById rows).getLast?

/-- The hash a new row is linked to, from the row that the first query returned. -/
def prevHashOf (tip : Option PgRow) : Bytes :=
  match tip with
  | none => genesisPrev
  | some row => if row.rowHash.length = 32 then row.rowHash else genesisPrev

/-- The log and the keys; `sequence` is the next value of the `id` column. -/
structure PgChainedAudit where
  rows : List PgRow
  sequence : Int
  keyring : Keyring

/-- `append`, with no other transaction in between. -/
def PgChainedAudit.append (audit : PgChainedAudit) (event : AuditEvent) :
    Except AuditError (Int × PgChainedAudit) :=
  audit.keyring.activeKey.bind fun key =>
    let prevHash := prevHashOf (newest? audit.rows)
    (computeRowHash lib key prevHash event audit.keyring.activeId).bind fun rowHash =>
      .ok (audit.sequence,
        { audit with
          rows := audit.rows ++
            [insertedRow pg audit.sequence event prevHash rowHash audit.keyring.activeId]
          sequence := audit.sequence + 1 })

def PgChainedAudit.verifyChain (audit : PgChainedAudit) (first last : Int) : Except AuditError ChainVerdict :=
  let rows := orderById (audit.rows.filter fun row => first ≤ row.id && row.id ≤ last)
  let expectedPrev :=
    if 1 < first then
      match newest? (audit.rows.filter fun row => row.id < first) with
      | none => genesisPrev
      | some prior => prior.rowHash
    else genesisPrev
  verifyRows lib (rowFromDb pg) audit.keyring.get (fun storedPrev => storedPrev.map hexEncode) 0
    expectedPrev rows

/-- The logs that appends, key changes and lost transactions build, with what was signed; a lost
transaction uses up an identifier. -/
inductive PgChainedAudit.Honest : PgChainedAudit → List Signed → Prop
  | new (keyring : Keyring) : Honest ⟨[], 1, keyring⟩ []
  | append {audit after : PgChainedAudit} {signed : List Signed} {event : AuditEvent}
      {key : Bytes} {id : Int} (before : Honest audit signed)
      (active : audit.keyring.activeKey = .ok key)
      (appended : audit.append lib pg event = .ok (id, after)) :
      Honest after (signed ++ [⟨key, event.payload audit.keyring.activeId⟩])
  | lose {audit : PgChainedAudit} {signed : List Signed} (before : Honest audit signed) :
      Honest { audit with sequence := audit.sequence + 1 } signed
  | rotate {audit : PgChainedAudit} {signed : List Signed} (newId : String) (newKey : Bytes)
      (before : Honest audit signed) :
      Honest { audit with keyring := audit.keyring.rotate newId newKey } signed

variable {lib pg}

theorem rowFromDb_ok (reading : rowFromDb pg stored = .ok row) :
    row.rowHash = stored.rowHash ∧ row.prevHash = stored.prevHash ∧
      row.hmacKeyId = stored.hmacKeyId ∧ row.id = stored.id ∧
      row.event.time = stored.time := by
  unfold rowFromDb at reading
  split at reading
  · cases reading
  obtain ⟨outcome, _, reading⟩ := bind_ok reading
  obtain ⟨subject, _, reading⟩ := bind_ok reading
  cases reading
  exact ⟨rfl, rfl, rfl, rfl, rfl⟩

theorem orderById_eq_self (ordered : rows.Pairwise fun one two => one.id ≤ two.id) : orderById rows = rows :=
  ordered.insertionSort_eq

theorem mem_orderById : row ∈ orderById rows ↔ row ∈ rows := List.mem_insertionSort _

variable {audit : PgChainedAudit}

theorem PgChainedAudit.append_ok {after : PgChainedAudit} {event : AuditEvent} {id : Int}
    (appended : audit.append lib pg event = .ok (id, after)) :
    ∃ key rowHash, audit.keyring.activeKey = .ok key ∧
      computeRowHash lib key (prevHashOf (newest? audit.rows)) event audit.keyring.activeId = .ok rowHash ∧
      after.rows = audit.rows ++ [insertedRow pg audit.sequence event
        (prevHashOf (newest? audit.rows)) rowHash audit.keyring.activeId] ∧
      after.sequence = audit.sequence + 1 := by
  unfold PgChainedAudit.append at appended
  obtain ⟨key, active, appended⟩ := bind_ok appended
  obtain ⟨rowHash, computed, appended⟩ := bind_ok appended
  cases appended
  exact ⟨key, rowHash, active, computed, rfl, rfl⟩

/-- Identifiers grow along the rows, and the sequence is ahead of them. -/
structure Sequenced (rows : List PgRow) (sequence : Int) : Prop where
  ordered : rows.Pairwise fun one two => one.id ≤ two.id
  ahead : ∀ row ∈ rows, row.id < sequence

variable {rows : List PgRow} {sequence : Int}

theorem Sequenced.append (ids : Sequenced rows sequence) {row : PgRow} (drawn : row.id = sequence) :
    Sequenced (rows ++ [row]) (sequence + 1) := by
  constructor
  · rw [List.pairwise_append]
    refine ⟨ids.ordered, List.pairwise_singleton _ _, ?_⟩
    intro old member new last
    obtain rfl := List.mem_singleton.mp last
    have before := ids.ahead old member
    omega
  · intro one member
    rcases List.mem_append.mp member with old | last
    · have before := ids.ahead one old
      omega
    · obtain rfl := List.mem_singleton.mp last
      omega

theorem Sequenced.mono {later : Int} (ids : Sequenced rows sequence) (grown : sequence ≤ later) :
    Sequenced rows later :=
  ⟨ids.ordered, fun row member => lt_of_lt_of_le (ids.ahead row member) grown⟩

theorem Sequenced.newest (ids : Sequenced rows sequence) : newest? rows = rows.getLast? := by
  rw [newest?, orderById_eq_self ids.ordered]

variable {signed : List Signed}

theorem prevHashOf_eq_tip (hashes : rows.map PgRow.rowHash = HashChain.digests (link lib) genesisPrev signed)
    (serialised : ∀ one ∈ signed, one.Serialised lib) :
    prevHashOf rows.getLast? = HashChain.tip (link lib) genesisPrev signed := by
  have last : prevHashOf rows.getLast? = (rows.map PgRow.rowHash).getLast?.getD genesisPrev := by
    rw [List.getLast?_map]
    cases final : rows.getLast? with
    | none => rfl
    | some row =>
      have stored : row.rowHash ∈ HashChain.digests (link lib) genesisPrev signed := by
        rw [← hashes]
        exact List.mem_map_of_mem (List.mem_of_getLast? final)
      rw [prevHashOf, if_pos (length_of_mem_digests serialised stored)]
      rfl
  rw [last, hashes, HashChain.getLast?_digests]

theorem PgChainedAudit.Honest.sequenced (honest : Honest lib pg audit signed) :
    Sequenced audit.rows audit.sequence := by
  induction honest with
  | new keyring =>
    refine ⟨List.Pairwise.nil, ?_⟩
    intro row member
    cases member
  | append before active appended ih =>
    obtain ⟨key, rowHash, _, _, rows, sequence⟩ := append_ok appended
    rw [rows, sequence]
    exact ih.append rfl
  | lose before ih => exact ih.mono (by simp)
  | rotate newId newKey before ih => exact ih

theorem PgChainedAudit.Honest.chainOf (honest : Honest lib pg audit signed) :
    ChainOf lib genesisPrev signed (signed.map Signed.payload) (audit.rows.map PgRow.rowHash) := by
  induction honest with
  | new keyring => exact ⟨rfl, rfl, by intro one member; cases member⟩
  | lose before ih | rotate newId newKey before ih => exact ih
  | @append audit after signed event key id before active appended ih =>
    obtain ⟨found, rowHash, resolved, computed, rows, _⟩ := append_ok appended
    cases resolved.symm.trans active
    have tip : prevHashOf (newest? audit.rows) = HashChain.tip (link lib) genesisPrev signed := by
      rw [before.sequenced.newest]
      exact prevHashOf_eq_tip ih.hashes ih.serialised
    rw [tip] at computed
    rw [rows, List.map_append, List.map_append]
    exact ih.snoc computed

end Rows

end SpectonCr.Audit
