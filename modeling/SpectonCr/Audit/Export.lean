import SpectonCr.Audit.Concurrent
import SpectonCr.Base.Interleaving

namespace SpectonCr.Audit

open Interleaving

inductive ExportError where
  | audit (error : AuditError)
  | io (reason : String)
  | objectStore (reason : String)
  | serde (reason : String)
  | empty
  | zstd (reason : String)

def pairLevel (hashPair : Bytes → Bytes → Bytes) : List Bytes → List Bytes
  | [] => []
  | [left] => [hashPair left left]
  | left :: right :: rest => hashPair left right :: pairLevel hashPair rest

/-- The levels up to the root; a level is shorter than the one below it. -/
def climb (hashPair : Bytes → Bytes → Bytes) : Nat → List Bytes → Bytes
  | _, [] => genesisPrev
  | _, [root] => root
  | 0, first :: _ => first
  | fuel + 1, level => climb hashPair fuel (pairLevel hashPair level)

def merkleRoot (hashPair : Bytes → Bytes → Bytes) (leaves : List Bytes) : Bytes :=
  climb hashPair leaves.length leaves

structure ExportLine where
  id : Int
  time : Time
  tenant : Option String
  (category action actorSub : String)
  (actorIp actorUa : Option String)
  subject : Option Json
  outcome : String
  errorCode : Option String
  attributes : List (String × Json)
  prevHash : Option String
  (rowHash hmacKeyId : String)

def ExportLine.ofRow (row : AuditRow) : ExportLine where
  id := row.id
  time := row.event.time
  tenant := row.tenant
  category := row.event.category.asStr
  action := row.event.action
  actorSub := row.event.actor.sub
  actorIp := row.event.actor.sourceIp
  actorUa := row.event.actor.ua
  subject := row.event.subject.map Subject.toJson
  outcome := row.event.outcome.asStr
  errorCode := row.event.outcome.errorCode
  attributes := row.event.attributes
  prevHash := row.prevHash.map hexEncode
  rowHash := hexEncode row.rowHash
  hmacKeyId := row.hmacKeyId

/-- The libraries of an export. -/
structure ExportLib where
  /-- SHA-256 of two hashes one after the other. -/
  hashPair : Bytes → Bytes → Bytes
  /-- `serde_json::to_writer`, with the text of its error. -/
  write : ExportLine → Except String Bytes
  zstd : Bytes → Except String Bytes
  /-- The year, month, day and hour of a time, as the object key has them. -/
  stamp : Time → String

/-- How a destination refuses a file. -/
inductive PutError where
  | io (reason : String)
  | objectStore (reason : String)

def PutError.toExport : PutError → ExportError
  | .io reason => .io reason
  | .objectStore reason => .objectStore reason

/-- One call of `export_pending`: its time, whether it compresses, and how its destination answers
a `put`. -/
structure ExportCall where
  now : Time
  compress : Bool
  put : String → Bytes → Except PutError String

structure ExportResult where
  (rangeFrom rangeTo : Int)
  (merkleRoot exportedTo : String)
  rowCount : Nat
  compressed : Bool

structure Checkpoint where
  (id rangeFrom rangeTo : Int)
  merkleRoot : Bytes
  exportedTo : Option String
  time : Time

/-- A checkpoint with the rows of its export. -/
structure Exported extends Checkpoint where
  rows : List AuditRow

def Exported.ids (exported : Exported) : List Int := exported.rows.map AuditRow.id

section Export

variable (exporter : ExportLib) (pg : PgLib)

/-- `AuditSink::get`. -/
def PgChainedAudit.get (audit : PgChainedAudit) (id : Int) : Except AuditError AuditRow :=
  match audit.rows.find? fun row => row.id = id with
  | none => .error (.notFound id)
  | some row => rowFromDb pg row

/-- `tip_id`: the query reads the whole newest row. -/
def tipId (audit : PgChainedAudit) : Except ExportError (Option Int) :=
  match newest? audit.rows with
  | none => .ok none
  | some row => ((rowFromDb pg row).mapError .audit).map fun found => some found.id

/-- The leaf of a row, when its hash has the right length. -/
def leafOf (row : AuditRow) : Except ExportError Bytes :=
  if row.rowHash.length = 32 then .ok row.rowHash
  else .error (.audit (.unavailable ("row " ++ toString row.id ++ " has non-32-byte hash")))

def rootForRows (rows : List AuditRow) : Except ExportError Bytes :=
  (rows.mapM leafOf).map (merkleRoot exporter.hashPair)

def encodeLine (row : AuditRow) : Except ExportError Bytes :=
  ((exporter.write (.ofRow row)).mapError .serde).map fun line => line ++ [0x0A]

def encodeJsonl (rows : List AuditRow) : Except ExportError Bytes :=
  (rows.mapM (encodeLine exporter)).map List.flatten

def maybeCompress (jsonl : Bytes) (compress : Bool) : Except ExportError (Bytes × Bool) :=
  if compress then ((exporter.zstd jsonl).mapError .zstd).map fun body => (body, true)
  else .ok (jsonl, false)

def exportObjectKey (now : Time) (rangeFrom rangeTo : Int) (compressed : Bool) : String :=
  "audit/" ++ exporter.stamp now ++ "-" ++ toString rangeFrom ++ "-" ++ toString rangeTo ++ "." ++
    (if compressed then "jsonl.zst" else "jsonl")

/-- `export_range` after its reads. -/
def publish (call : ExportCall) (found : List AuditRow) :
    Except ExportError (ExportResult × Bytes × List AuditRow) :=
  let rows := found.insertionSort fun one two => one.id ≤ two.id
  match rows.head?, rows.getLast? with
  | some first, some last =>
    (rootForRows exporter rows).bind fun root =>
      (encodeJsonl exporter rows).bind fun jsonl =>
        (maybeCompress exporter jsonl call.compress).bind fun body =>
          ((call.put (exportObjectKey exporter call.now first.id last.id body.2)
            body.1).mapError PutError.toExport).bind fun exportedTo =>
              .ok (⟨first.id, last.id, hexEncode root, exportedTo, rows.length, body.2⟩, root, rows)
  | _, _ => .error .empty

/-- The reads of `export_range` from an identifier on; one that is not there is skipped. -/
def fetchRows (audit : PgChainedAudit) : Nat → Int → Except ExportError (List AuditRow)
  | 0, _ => .ok []
  | count + 1, id =>
    match audit.get pg id with
    | .ok row => (fetchRows audit count (id + 1)).map fun rows => row :: rows
    | .error (.notFound _) => fetchRows audit count (id + 1)
    | .error error => .error (.audit error)

def exportRange (audit : PgChainedAudit) (call : ExportCall) (first last : Int) :
    Except ExportError (ExportResult × Bytes × List AuditRow) :=
  if last < first then .error .empty
  else (fetchRows pg audit (last - first + 1).toNat first).bind (publish exporter call)

/-- Where the next export begins. -/
def nextFrom (checkpoints : List Exported) : Int :=
  match checkpoints.getLast? with
  | some checkpoint => checkpoint.rangeTo + 1
  | none => 1

def recordCheckpoint (call : ExportCall) (result : ExportResult) (root : Bytes)
    (rows : List AuditRow) (checkpoints : List Exported) : List Exported :=
  checkpoints ++ [{
    id := checkpoints.length + 1
    rangeFrom := result.rangeFrom
    rangeTo := result.rangeTo
    merkleRoot := root
    exportedTo := some result.exportedTo
    time := call.now
    rows }]

/-- `export_pending`, with no other work in between. -/
def exportPending (audit : PgChainedAudit) (call : ExportCall) (checkpoints : List Exported) :
    Except ExportError ExportResult × List Exported :=
  let first := nextFrom checkpoints
  match tipId pg audit with
  | .error error => (.error error, checkpoints)
  | .ok none => (.error .empty, checkpoints)
  | .ok (some last) =>
    if last < first then (.error .empty, checkpoints)
    else match exportRange exporter pg audit call first last with
      | .error error => (.error error, checkpoints)
      | .ok (result, root, rows) => (.ok result, recordCheckpoint call result root rows checkpoints)

/-- What appends and exports share. -/
structure ExportShared where
  database : PgDatabase
  checkpoints : List Exported

def ExportShared.ids (shared : ExportShared) : List Int := shared.database.audit.rows.map PgRow.id

/-- An export by its next query: for the last checkpoint, for the tip, for one identifier after the
other; then the upload, and the `INSERT`. `seen` was committed at its first query. -/
inductive Exporting where
  | opened (call : ExportCall)
  | ranged (call : ExportCall) (seen : List Int) (first : Int)
  | fetching (call : ExportCall) (seen : List Int) (first next last : Int) (rows : List AuditRow)
  | publishing (call : ExportCall) (seen : List Int) (first last : Int) (rows : List AuditRow)
  | recording (call : ExportCall) (seen : List Int) (first last : Int) (result : ExportResult)
      (root : Bytes) (rows : List AuditRow)

def Exporting.seen : Exporting → List Int
  | .opened _ => []
  | .ranged _ seen _ => seen
  | .fetching _ seen _ _ _ _ => seen
  | .publishing _ seen _ _ _ => seen
  | .recording _ seen _ _ _ _ _ => seen

abbrev ExportAnswer := Except ExportError ExportResult

/-- The read of one identifier by the loop of `export_range`. -/
def fetchNext (call : ExportCall) (seen : List Int) (first next last : Int)
    (rows : List AuditRow) : Exporting :=
  if next < last then .fetching call seen first (next + 1) last rows
  else .publishing call seen first last rows

def Exporting.operate (exporting : Exporting) (shared : ExportShared) :
    ExportShared × (Exporting ⊕ ExportAnswer) :=
  match exporting with
  | .opened call => (shared, .inl (.ranged call shared.ids (nextFrom shared.checkpoints)))
  | .ranged call seen first =>
    match tipId pg shared.database.audit with
    | .error error => (shared, .inr (.error error))
    | .ok none => (shared, .inr (.error .empty))
    | .ok (some last) =>
      if last < first then (shared, .inr (.error .empty))
      else (shared, .inl (.fetching call seen first first last []))
  | .fetching call seen first next last rows =>
    match shared.database.audit.get pg next with
    | .ok row => (shared, .inl (fetchNext call seen first next last (rows ++ [row])))
    | .error (.notFound _) => (shared, .inl (fetchNext call seen first next last rows))
    | .error error => (shared, .inr (.error (.audit error)))
  | .publishing call seen first last rows =>
    match publish exporter call rows with
    | .error error => (shared, .inr (.error error))
    | .ok (result, root, sorted) =>
      (shared, .inl (.recording call seen first last result root sorted))
  | .recording call _ _ _ result root rows =>
    ({ shared with checkpoints := recordCheckpoint call result root rows shared.checkpoints },
      .inr (.ok result))

def exportProcess : Process ExportCall ExportShared Exporting ExportAnswer where
  launch call := .inl (.opened call)
  operate := Exporting.operate exporter pg

variable {exporter pg}

variable {call : ExportCall}

/-- How `export_pending` ends with the outcome of `export_range`. -/
private def closing (call : ExportCall) (shared : ExportShared) :
    Except ExportError (ExportResult × Bytes × List AuditRow) → ExportAnswer × ExportShared
  | .error error => (.error error, shared)
  | .ok (result, root, rows) => (.ok result,
      { shared with checkpoints := recordCheckpoint call result root rows shared.checkpoints })

/-- The loop of the process reads what the function reads. -/
private theorem fetchNext_alone {last : Int} (seen : List Int) (first : Int) (shared : ExportShared)
    (count : Nat) (next : Int) (rows : List AuditRow) (reached : last = next + count) :
    let ended := closing call shared ((fetchRows pg shared.database.audit count (next + 1)).bind fun more =>
      publish exporter call (rows ++ more))
    (exportProcess exporter pg).Alone (fetchNext call seen first next last rows) shared ended.1 ended.2 := by
  induction count generalizing next rows with
  | zero =>
    have done : ¬next < last := by omega
    simp only [fetchNext, done, ↓reduceIte, fetchRows, Except.bind, List.append_nil]
    cases published : publish exporter call rows with
    | error error => exact .finish (by simp only [exportProcess, Exporting.operate, published, closing])
    | ok value =>
      refine .advance (by simp only [exportProcess, Exporting.operate, published]; rfl) ?_
      exact .finish rfl
  | succ count ih =>
    have more : next < last := by omega
    simp only [fetchNext, more, ↓reduceIte, fetchRows]
    cases got : shared.database.audit.get pg (next + 1) with
    | ok row =>
      refine .advance (by simp only [exportProcess, Exporting.operate, got]; rfl) ?_
      have later := ih (next + 1) (rows ++ [row]) (by omega)
      cases fetched : fetchRows pg shared.database.audit count (next + 1 + 1) <;>
        simpa [fetched, Except.bind, Except.map] using later
    | error error =>
      cases error with
      | notFound id =>
        refine .advance (by simp only [exportProcess, Exporting.operate, got]; rfl) ?_
        exact ih (next + 1) rows (by omega)
      | _ => exact .finish (by simp only [exportProcess, Exporting.operate, got]; rfl)

/-- An export that nothing comes between is the function. -/
theorem exportPending_serves (call : ExportCall) (shared : ExportShared) :
    (exportProcess exporter pg).Serves call shared
      (exportPending exporter pg shared.database.audit call shared.checkpoints).1
      { shared with
        checkpoints :=
          (exportPending exporter pg shared.database.audit call shared.checkpoints).2 } := by
  refine .advance rfl ?_
  simp only [exportPending]
  cases tip : tipId pg shared.database.audit with
  | error error => exact .finish (by simp only [exportProcess, Exporting.operate, tip])
  | ok found =>
    cases found with
    | none => exact .finish (by simp only [exportProcess, Exporting.operate, tip])
    | some last =>
      by_cases before : last < nextFrom shared.checkpoints
      · simp only [before, ↓reduceIte]
        exact .finish (by simp only [exportProcess, Exporting.operate, tip, before, ↓reduceIte])
      refine .advance (by simp only [exportProcess, Exporting.operate, tip, before, ↓reduceIte]; rfl) ?_
      have loop := @fetchNext_alone exporter pg call last shared.ids (nextFrom shared.checkpoints) shared
        (last - nextFrom shared.checkpoints + 1).toNat (nextFrom shared.checkpoints - 1) [] (by omega)
      have begun : nextFrom shared.checkpoints - 1 < last := by omega
      simp only [fetchNext, begun, ↓reduceIte, sub_add_cancel, List.nil_append] at loop
      simp only [before, ↓reduceIte, exportRange]
      revert loop
      rcases Except.bind _ (publish exporter call) with error | ⟨result, root, rows⟩ <;> exact id

end Export

section Reads

variable {pg : PgLib}

private theorem bind_error {Error First Value : Type} {result : Except Error First}
    {next : First → Except Error Value} {error : Error} (failed : result.bind next = .error error) :
    result = .error error ∨ ∃ first, next first = .error error := by
  cases result with
  | error reason =>
    cases failed
    exact .inl rfl
  | ok first => exact .inr ⟨first, failed⟩

variable {id : Int}

theorem rowFromDb_ne_notFound {stored : PgRow} : rowFromDb pg stored ≠ .error (.notFound id) := by
  intro reading
  unfold rowFromDb at reading
  split at reading
  · cases reading
  rcases bind_error reading with outcome | ⟨_, reading⟩
  · split at outcome
    · cases outcome
    · split at outcome <;> cases outcome
  rcases bind_error reading with subject | ⟨_, reading⟩
  · split at subject
    · cases subject
    · split at subject <;> cases subject
  · cases reading

variable {audit : PgChainedAudit}

theorem get_ok {row : AuditRow} (got : audit.get pg id = .ok row) :
    row.id = id ∧ id ∈ audit.rows.map PgRow.id := by
  unfold PgChainedAudit.get at got
  split at got
  · cases got
  rename_i stored found
  have same : stored.id = id := by simpa using List.find?_some found
  exact ⟨(rowFromDb_ok got).2.2.2.1.trans same,
    List.mem_map.mpr ⟨stored, List.mem_of_find?_eq_some found, same⟩⟩

theorem get_notFound {missing : Int} (got : audit.get pg id = .error (.notFound missing)) :
    id ∉ audit.rows.map PgRow.id := by
  unfold PgChainedAudit.get at got
  split at got
  · rename_i absent
    intro member
    obtain ⟨row, listed, same⟩ := List.mem_map.mp member
    exact absurd same (by simpa using List.find?_eq_none.mp absent row listed)
  · exact absurd got rowFromDb_ne_notFound

theorem newest?_max (newest : newest? rows = some row) : row ∈ rows ∧ ∀ other ∈ rows, other.id ≤ row.id := by
  refine ⟨mem_orderById.mp (List.mem_of_getLast? newest), ?_⟩
  intro other member
  have ordered : (orderById rows).Pairwise fun one two => one.id ≤ two.id :=
    List.pairwise_insertionSort _ rows
  obtain ⟨front, split⟩ := List.getLast?_eq_some_iff.mp newest
  rw [split] at ordered
  rcases List.mem_append.mp (split ▸ mem_orderById.mpr member) with earlier | last
  · exact (List.pairwise_append.mp ordered).2.2 other earlier row (List.mem_singleton_self row)
  · obtain rfl := List.mem_singleton.mp last
    exact le_rfl

/-- The tip is the largest identifier that is committed. -/
theorem tipId_some (tip : tipId pg audit = .ok (some last)) :
    last ∈ audit.rows.map PgRow.id ∧ ∀ id ∈ audit.rows.map PgRow.id, id ≤ last := by
  unfold tipId at tip
  split at tip
  · cases tip
  rename_i row newest
  obtain ⟨member, largest⟩ := newest?_max newest
  cases reading : rowFromDb pg row with
  | error error =>
    rw [reading] at tip
    cases tip
  | ok found =>
    rw [reading] at tip
    obtain rfl : found.id = last := Option.some.inj (Except.ok.inj tip)
    rw [(rowFromDb_ok reading).2.2.2.1]
    refine ⟨List.mem_map_of_mem member, ?_⟩
    intro id listed
    obtain ⟨other, present, rfl⟩ := List.mem_map.mp listed
    exact largest other present

theorem tipId_none (tip : tipId pg audit = .ok none) : audit.rows = [] := by
  unfold tipId at tip
  split at tip
  · rename_i absent
    rw [newest?, List.getLast?_eq_none_iff] at absent
    apply List.eq_nil_iff_forall_not_mem.mpr
    intro row member
    exact absurd (mem_orderById.mpr member) (by simp [absent])
  · cases reading : rowFromDb pg _ with
    | error error | ok found =>
      rw [reading] at tip
      cases tip

end Reads

section Published

variable {exporter : ExportLib} {rows : List AuditRow}

theorem publish_ok (ordered : rows.Pairwise fun one two => one.id < two.id)
    (published : publish exporter call rows = .ok (result, root, sorted)) :
    sorted = rows ∧ ∃ head final, rows.head? = some head ∧ rows.getLast? = some final ∧
      result.rangeFrom = head.id ∧ result.rangeTo = final.id := by
  have same : rows.insertionSort (fun one two => one.id ≤ two.id) = rows :=
    (ordered.imp fun less => le_of_lt less).insertionSort_eq
  simp only [publish, same] at published
  split at published
  · rename_i head final begins ends
    obtain ⟨_, _, published⟩ := bind_ok published
    obtain ⟨_, _, published⟩ := bind_ok published
    obtain ⟨_, _, published⟩ := bind_ok published
    obtain ⟨_, _, published⟩ := bind_ok published
    simp only [Except.ok.injEq, Prod.mk.injEq] at published
    obtain ⟨rfl, _, rfl⟩ := published
    exact ⟨rfl, head, final, begins, ends, rfl, rfl⟩
  · cases published

private theorem mapM_error {Item Value : Type} {call : Item → Except ExportError Value}
    (other : ∀ item, call item ≠ .error .empty) (items : List Item) : items.mapM call ≠ .error .empty := by
  induction items with
  | nil => exact nofun
  | cons item rest ih =>
    intro failed
    rw [List.mapM_cons] at failed
    rcases bind_error failed with first | ⟨_, failed⟩
    · exact other item first
    · rcases bind_error failed with later | ⟨_, failed⟩
      · exact ih later
      · cases failed

private theorem map_error {First Value : Type} {result : Except ExportError First}
    {make : First → Value} (other : result ≠ .error .empty) : result.map make ≠ .error .empty := by
  cases result with
  | error reason =>
    intro failed
    cases failed
    exact other rfl
  | ok value => exact nofun

theorem publish_ne_empty {call : ExportCall} (found : rows ≠ []) :
    publish exporter call rows ≠ .error .empty := by
  intro failed
  simp only [publish] at failed
  split at failed
  · rcases bind_error failed with root | ⟨_, failed⟩
    · refine map_error (mapM_error ?_ _) root
      intro row
      unfold leafOf
      split <;> exact nofun
    · rcases bind_error failed with jsonl | ⟨_, failed⟩
      · refine map_error (mapM_error ?_ _) jsonl
        intro row
        apply map_error
        cases exporter.write (.ofRow row) <;> exact nofun
      · rcases bind_error failed with body | ⟨_, failed⟩
        · unfold maybeCompress at body
          split at body
          · refine map_error ?_ body
            cases exporter.zstd _ <;> exact nofun
          · cases body
        · rcases bind_error failed with put | ⟨_, failed⟩
          · cases answered : call.put _ _ with
            | error reason =>
              rw [answered] at put
              cases reason <;> cases put
            | ok text =>
              rw [answered] at put
              cases put
          · cases failed
  · rename_i absent
    have length : (rows.insertionSort fun one two => one.id ≤ two.id) ≠ [] := by
      intro none
      have sizes := List.length_insertionSort (fun one two : AuditRow => one.id ≤ two.id) rows
      rw [none] at sizes
      exact found (List.length_eq_zero_iff.mp sizes.symm)
    exact absent _ _ (List.head?_eq_some_head length) (List.getLast?_eq_some_getLast length)

end Published

end SpectonCr.Audit
