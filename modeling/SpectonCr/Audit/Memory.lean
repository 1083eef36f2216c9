import SpectonCr.Audit.Chain
import SpectonCr.Base.Table

namespace SpectonCr.Audit

structure InMemoryAudit where
  rows : List AuditRow
  nextId : Int
  hmacKey : Bytes
  hmacKeyId : String
  keys : Table String Bytes

namespace InMemoryAudit

def new (hmacKey : Bytes) (hmacKeyId : String) : InMemoryAudit :=
  ⟨[], 1, hmacKey, hmacKeyId, AList.insert hmacKeyId hmacKey ∅⟩

def registerAndActivate (sink : InMemoryAudit) (newId : String) (newKey : Bytes) :
    InMemoryAudit :=
  { sink with
    keys := sink.keys.insert newId newKey
    hmacKey := newKey
    hmacKeyId := newId }

def resolveKey (sink : InMemoryAudit) (keyId : String) : Except AuditError Bytes :=
  if keyId = sink.hmacKeyId then .ok sink.hmacKey
  else match sink.keys.lookup keyId with
    | none => .error (.unknownKey keyId)
    | some key => .ok key

/-- The hash the next row is linked to; the rows pushed here have 32 bytes of it. -/
def prevHash (sink : InMemoryAudit) : Bytes :=
  match sink.rows.getLast? with
  | none => genesisPrev
  | some last => last.rowHash

section Operations

variable (lib : HashLib)

def append (sink : InMemoryAudit) (event : AuditEvent) : Except AuditError (Int × InMemoryAudit) :=
  (computeRowHash lib sink.hmacKey sink.prevHash event sink.hmacKeyId).bind fun rowHash =>
    .ok (sink.nextId,
      { sink with
        rows := sink.rows ++
          [⟨sink.nextId, event, tenantOf event, some sink.prevHash, rowHash, sink.hmacKeyId⟩]
        nextId := sink.nextId + 1 })

def verifyChain (sink : InMemoryAudit) (first last : Int) : Except AuditError ChainVerdict :=
  let slice := sink.rows.filter fun row => first ≤ row.id && row.id ≤ last
  let expectedPrev :=
    match sink.rows.reverse.find? fun row => row.id < first with
    | some before => before.rowHash
    | none => if 1 < first then (slice.head?.bind AuditRow.prevHash).getD genesisPrev
      else genesisPrev
  verifyRows lib Except.ok sink.resolveKey
    (fun storedPrev => some (hexEncode (storedPrev.getD []))) 0 expectedPrev slice

/-- The logs that appends and key changes build, with what was signed. -/
inductive Honest : InMemoryAudit → List Signed → Prop
  | new (hmacKey : Bytes) (hmacKeyId : String) : Honest (new hmacKey hmacKeyId) []
  | append {sink after : InMemoryAudit} {signed : List Signed} {event : AuditEvent} {id : Int}
      (before : Honest sink signed) (appended : sink.append lib event = .ok (id, after)) :
      Honest after (signed ++ [⟨sink.hmacKey, event.payload sink.hmacKeyId⟩])
  | rotate {sink : InMemoryAudit} {signed : List Signed} (newId : String) (newKey : Bytes)
      (before : Honest sink signed) : Honest (sink.registerAndActivate newId newKey) signed

variable {lib}

theorem append_ok {sink after : InMemoryAudit} {event : AuditEvent} {id : Int}
    (appended : sink.append lib event = .ok (id, after)) :
    ∃ rowHash, computeRowHash lib sink.hmacKey sink.prevHash event sink.hmacKeyId = .ok rowHash ∧
      after.rows = sink.rows ++ [⟨sink.nextId, event, tenantOf event, some sink.prevHash, rowHash,
        sink.hmacKeyId⟩] := by
  unfold append at appended
  obtain ⟨rowHash, computed, appended⟩ := bind_ok appended
  cases appended
  exact ⟨rowHash, computed, rfl⟩

private theorem prevHash_eq_tip {sink : InMemoryAudit} {signed : List Signed}
    (hashes : sink.rows.map AuditRow.rowHash = HashChain.digests (link lib) genesisPrev signed) :
    sink.prevHash = HashChain.tip (link lib) genesisPrev signed := by
  have last : sink.prevHash = (sink.rows.map AuditRow.rowHash).getLast?.getD genesisPrev := by
    rw [prevHash, List.getLast?_map]
    cases sink.rows.getLast? <;> rfl
  rw [last, hashes, HashChain.getLast?_digests]

theorem Honest.chainOf {sink : InMemoryAudit} {signed : List Signed} (honest : Honest lib sink signed) :
    ChainOf lib genesisPrev signed (sink.rows.map AuditRow.payload) (sink.rows.map AuditRow.rowHash) := by
  induction honest with
  | new hmacKey hmacKeyId => exact ⟨rfl, rfl, by intro one member; cases member⟩
  | rotate newId newKey before ih => exact ih
  | @append sink after signed event id before appended ih =>
    obtain ⟨rowHash, computed, rows⟩ := append_ok appended
    have tip := prevHash_eq_tip ih.hashes
    rw [tip] at computed
    rw [rows, List.map_append, List.map_append]
    exact ih.snoc computed

end Operations

end InMemoryAudit

end SpectonCr.Audit
