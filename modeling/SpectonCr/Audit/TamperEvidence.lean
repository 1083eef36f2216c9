import SpectonCr.Audit.Memory
import SpectonCr.Audit.Postgres

/-! Verified rows with honest hashes repeat the beginning of the log. -/

namespace SpectonCr.Audit

/-- The largest of a log's identifiers. -/
def largestId (ids : List Int) : Int := ids.foldl max 0

private theorem foldl_max_le (ids : List Int) (start : Int) :
    start ≤ ids.foldl max start ∧ ∀ id ∈ ids, id ≤ ids.foldl max start := by
  induction ids generalizing start with
  | nil => simp
  | cons first rest ih =>
    obtain ⟨grown, later⟩ := ih (max start first)
    refine ⟨le_trans (le_max_left _ _) grown, ?_⟩
    intro id member
    rcases List.mem_cons.mp member with rfl | listed
    · exact le_trans (le_max_right _ _) grown
    · exact later id listed

theorem le_largestId {ids : List Int} {id : Int} (member : id ∈ ids) : id ≤ largestId ids :=
  (foldl_max_le ids 0).2 id member

theorem filter_range_largestId {Row : Type} (idOf : Row → Int) {rows : List Row}
    (ids : ∀ row ∈ rows, 1 ≤ idOf row) :
    (rows.filter fun row => (1 : Int) ≤ idOf row && idOf row ≤ largestId (rows.map idOf)) = rows := by
  rw [List.filter_eq_self]
  intro row member
  have bounded : idOf row ≤ largestId (rows.map idOf) := le_largestId (List.mem_map_of_mem member)
  simp [ids row member, bounded]

section Whole

variable {lib : HashLib} {pg : PgLib}

theorem InMemoryAudit.verified_of_verifyChain {sink : InMemoryAudit} {verdict : ChainVerdict}
    (ids : ∀ row ∈ sink.rows, 1 ≤ row.id)
    (reported : sink.verifyChain lib 1 (largestId (sink.rows.map AuditRow.id)) = .ok verdict)
    (success : verdict.ok = true) : Verified lib Except.ok sink.resolveKey genesisPrev sink.rows := by
  have slice := filter_range_largestId AuditRow.id ids
  have before : (sink.rows.reverse.find? fun row => row.id < 1) = none := by
    rw [List.find?_eq_none]
    intro row member
    have positive := ids row (List.mem_reverse.mp member)
    simpa using positive
  simp only [verifyChain, slice, before, lt_self_iff_false, if_false] at reported
  exact (verifyRows_ok_iff rfl).mp ⟨verdict, reported, success⟩

theorem PgChainedAudit.verified_of_verifyChain {audit : PgChainedAudit} {verdict : ChainVerdict}
    (ids : ∀ row ∈ audit.rows, 1 ≤ row.id)
    (reported : audit.verifyChain lib pg 1 (largestId (audit.rows.map PgRow.id)) = .ok verdict)
    (success : verdict.ok = true) :
    Verified lib (rowFromDb pg) audit.keyring.get genesisPrev (orderById audit.rows) := by
  have slice := filter_range_largestId PgRow.id ids
  simp only [verifyChain, slice, lt_self_iff_false, if_false] at reported
  exact (verifyRows_ok_iff rfl).mp ⟨verdict, reported, success⟩

end Whole

/-- A verified log made of an honest log's hashes is a beginning of it, for both
backends. -/
theorem verified_log_of_honest_hashes (lib : HashLib) (pg : PgLib) (injective : CanonicalInjective lib) :
    (∀ (honest tampered : InMemoryAudit) signed verdict, honest.Honest lib signed →
      (∀ row ∈ tampered.rows, 1 ≤ row.id) →
      (∀ row ∈ tampered.rows, row.rowHash ∈ honest.rows.map AuditRow.rowHash) →
      HmacSound lib (hmacInputs lib signed ++ hmacInputs lib (signedRows tampered.resolveKey tampered.rows)) →
      tampered.verifyChain lib 1 (largestId (tampered.rows.map AuditRow.id)) = .ok verdict →
      verdict.ok = true →
      tampered.rows.map AuditRow.payload <+: honest.rows.map AuditRow.payload) ∧
    (∀ (honest tampered : PgChainedAudit) signed verdict, honest.Honest lib pg signed →
      (∀ row ∈ tampered.rows, 1 ≤ row.id) →
      (∀ row ∈ tampered.rows, row.rowHash ∈ honest.rows.map PgRow.rowHash) →
      HmacSound lib (hmacInputs lib signed ++ hmacInputs lib (signedRows tampered.keyring.get
        (readRows (rowFromDb pg) (orderById tampered.rows)))) →
      tampered.verifyChain lib pg 1 (largestId (tampered.rows.map PgRow.id)) = .ok verdict →
      verdict.ok = true →
      (readRows (rowFromDb pg) (orderById tampered.rows)).map AuditRow.payload <+:
        signed.map Signed.payload) := by
  constructor
  · intro honest tampered signed verdict built ids occurs sound reported success
    have verified := InMemoryAudit.verified_of_verifyChain ids reported success
    have rows : readRows Except.ok tampered.rows = tampered.rows := by
      simp [readRows, Except.toOption]
    have shown := verified.chainOf
    rw [rows] at shown
    refine built.chainOf.prefix_of_subset injective shown sound ?_
    intro hash member
    obtain ⟨row, listed, rfl⟩ := List.mem_map.mp member
    exact occurs row listed
  · intro honest tampered signed verdict built ids occurs sound reported success
    have verified := PgChainedAudit.verified_of_verifyChain ids reported success
    refine built.chainOf.prefix_of_subset injective verified.chainOf sound ?_
    intro hash member
    obtain ⟨row, listed, rfl⟩ := List.mem_map.mp member
    obtain ⟨stored, present, reading⟩ := mem_readRows.mp listed
    rw [(rowFromDb_ok reading).1]
    exact occurs stored (mem_orderById.mp present)

def demoEvent : AuditEvent := ⟨0, .push, "manifest.push", ⟨"ci", none, none, none⟩, none, .success, []⟩

def demoCanonical : Bytes :=
  ("\x7b\"at\":\"1970-01-01T00:00:00Z\",\"category\":\"push\",\"action\":\"manifest.push\"," ++
    "\"actor_sub\":\"ci\",\"actor_ip\":null,\"actor_ua\":null,\"subject\":null," ++
    "\"outcome\":\"success\",\"error_code\":null,\"attributes\":\x7b\x7d," ++
    "\"hmac_key_id\":\"v1\"\x7d").toUTF8.data.toList

def demoHash : Bytes :=
  [0xb5, 0x6b, 0x06, 0x9f, 0x61, 0x03, 0xd0, 0xb7, 0x3d, 0xf3, 0xc1, 0x40, 0xcd, 0xb1, 0xda, 0x82,
    0x9c, 0x77, 0x69, 0x46, 0x46, 0x0f, 0x02, 0xe8, 0x59, 0x98, 0x93, 0x26, 0x0e, 0x44, 0xd8, 0xb6]

/-- The hash of the same event after the first one. -/
def demoNextHash : Bytes :=
  [0x27, 0x4c, 0xfe, 0x46, 0x00, 0x17, 0x35, 0x55, 0x03, 0xf2, 0xb8, 0xca, 0x48, 0x2c, 0x09, 0x6f,
    0x7f, 0xee, 0x3a, 0x4a, 0xf0, 0xff, 0xa9, 0x4a, 0xfd, 0x61, 0xaf, 0x47, 0x66, 0x77, 0x3f, 0x7e]

/-- The libraries on the one event, under the key `k`. -/
def demoLib : HashLib where
  canonical payload :=
    if payload.time = 0 ∧ payload.category = "push" ∧ payload.action = "manifest.push" ∧
        payload.actorSub = "ci" ∧ payload.actorIp = none ∧ payload.actorUa = none ∧
        payload.subject = none ∧ payload.outcome = "success" ∧ payload.errorCode = none ∧
        payload.attributes.isEmpty ∧ payload.hmacKeyId = "v1" then .ok demoCanonical
    else .error "number out of range"
  hmac key message :=
    if key = [0x6b] ∧ message = genesisPrev ++ demoCanonical then demoHash
    else if key = [0x6b] ∧ message = demoHash ++ demoCanonical then demoNextHash
    else genesisPrev
  hmac_length := by
    intro key message
    split
    · rfl
    · split <;> rfl

def demoLog : InMemoryAudit :=
  { InMemoryAudit.new [0x6b] "v1" with
    rows := [⟨1, demoEvent, none, some genesisPrev, demoHash, "v1"⟩]
    nextId := 2 }

theorem demo_canonical_injective : CanonicalInjective demoLib := by
  have only : ∀ payload canonical, demoLib.canonical payload = .ok canonical →
      payload = demoEvent.payload "v1" := by
    intro payload canonical written
    simp only [demoLib] at written
    split at written
    · rename_i fields
      obtain ⟨time, category, action, actorSub, actorIp, actorUa, subject, outcome, errorCode,
        attributes, keyId⟩ := payload
      simp only [List.isEmpty_iff] at fields
      obtain ⟨rfl, rfl, rfl, rfl, rfl, rfl, rfl, rfl, rfl, rfl, rfl⟩ := fields
      rfl
    · cases written
  intro one two canonical first second
  rw [only one canonical first, only two canonical second]

theorem demo_hash : computeRowHash demoLib [0x6b] genesisPrev demoEvent "v1" = .ok demoHash := by
  refine computeRowHash_ok.mpr ⟨demoCanonical, rfl, ?_⟩
  simp [demoLib]

/-- The hash of the one event, which a log and its copy ask for. -/
theorem demo_hmac_sound : HmacSound demoLib
    [([0x6b], genesisPrev ++ demoCanonical), ([0x6b], genesisPrev ++ demoCanonical)] := by
  have differs : demoHash ≠ genesisPrev := by decide
  constructor
  · simp
  · simpa [demoLib] using differs

/-- The honest log of one event verifies, and is its own beginning. -/
theorem demo_log_verified : demoLog.Honest demoLib [⟨[0x6b], demoEvent.payload "v1"⟩] ∧
      demoLog.verifyChain demoLib 1 (largestId (demoLog.rows.map AuditRow.id)) =
        .ok ⟨true, 1, none, none, none⟩ ∧
      demoLog.rows.map AuditRow.payload <+: demoLog.rows.map AuditRow.payload := by
  have appended : (InMemoryAudit.new [0x6b] "v1").append demoLib demoEvent = .ok (1, demoLog) := by
    have hash : computeRowHash demoLib (InMemoryAudit.new [0x6b] "v1").hmacKey
        (InMemoryAudit.new [0x6b] "v1").prevHash demoEvent
        (InMemoryAudit.new [0x6b] "v1").hmacKeyId = .ok demoHash := demo_hash
    rw [InMemoryAudit.append, hash]
    rfl
  have honest : demoLog.Honest demoLib [⟨[0x6b], demoEvent.payload "v1"⟩] :=
    .append (.new [0x6b] "v1") appended
  have reported : demoLog.verifyChain demoLib 1 (largestId (demoLog.rows.map AuditRow.id)) =
      .ok ⟨true, 1, none, none, none⟩ := by
    have loop : demoLog.verifyChain demoLib 1 (largestId (demoLog.rows.map AuditRow.id)) =
        verifyRows demoLib Except.ok demoLog.resolveKey
          (fun storedPrev => some (hexEncode (storedPrev.getD []))) 0 genesisPrev demoLog.rows := by
      rfl
    have sized : genesisPrev.length = 32 := rfl
    rw [loop]
    simp [verifyRows, Except.bind, demoLog, InMemoryAudit.new, InMemoryAudit.resolveKey, demo_hash, sized]
  refine ⟨honest, reported, ?_⟩
  refine (verified_log_of_honest_hashes demoLib ⟨id, fun _ => "invalid type"⟩
    demo_canonical_injective).1 demoLog demoLog _ _ honest (by simp [demoLog]) ?_ demo_hmac_sound
    reported rfl
  intro row member
  exact List.mem_map_of_mem member

end SpectonCr.Audit
