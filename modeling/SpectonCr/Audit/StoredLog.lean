import SpectonCr.Audit.Concurrent

namespace SpectonCr.Audit

/-- What was signed comes back from the columns: its time is one that the column keeps, and its
key id still stands for the key. -/
def Signed.Kept (resolveKey : String → Except AuditError Bytes) (signed : Signed) : Prop :=
  timestamptz signed.payload.time = signed.payload.time ∧ resolveKey signed.payload.hmacKeyId = .ok signed.key

section Stored

variable {lib : HashLib} {pg : PgLib}

theorem stable_of_jsonb (jsonb : ∀ document, pg.jsonb document = document) {event : AuditEvent}
    (whole : timestamptz event.time = event.time) : event.Stable pg :=
  ⟨whole, fun subject _ => jsonb subject.toJson, jsonb (.obj event.attributes)⟩

theorem PgChainedAudit.Honest.positive (honest : Honest lib pg audit signed) :
    1 ≤ audit.sequence ∧ ∀ row ∈ audit.rows, 1 ≤ row.id := by
  induction honest with
  | new keyring =>
    refine ⟨le_rfl, ?_⟩
    intro row member
    cases member
  | append before active appended ih =>
    obtain ⟨key, rowHash, _, _, rows, sequence⟩ := append_ok appended
    rw [rows, sequence]
    refine ⟨by omega, ?_⟩
    intro row member
    rcases List.mem_append.mp member with old | new
    · exact ih.2 row old
    · obtain rfl := List.mem_singleton.mp new
      exact ih.1
  | lose before ih => exact ⟨by simp only; omega, ih.2⟩
  | rotate newId newKey before ih => exact ih

/-- Over the whole log, the verification succeeds exactly when the rows are verified. -/
theorem PgChainedAudit.Honest.accepted_iff (honest : Honest lib pg audit signed) :
    audit.Accepted lib pg (largestId (audit.rows.map PgRow.id)) ↔
      Verified lib (rowFromDb pg) audit.keyring.get genesisPrev audit.rows := by
  have slice := filter_range_largestId PgRow.id honest.positive.2
  simp only [Accepted, verifyChain, slice, lt_self_iff_false, if_false,
    orderById_eq_self honest.sequenced.ordered]
  exact verifyRows_ok_iff rfl

theorem Verified.prevHashOf_getLast? (verified : Verified lib (rowFromDb pg) resolveKey genesisPrev rows) :
    (rows.getLast?.map PgRow.rowHash).getD genesisPrev = prevHashOf rows.getLast? := by
  cases final : rows.getLast? with
  | none => rfl
  | some last => exact (verified.prevHashOf_getLast final).symm

theorem PgChainedAudit.Honest.verified (jsonb : ∀ document, pg.jsonb document = document)
    (honest : Honest lib pg audit signed) (kept : ∀ one ∈ signed, one.Kept resolveKey) :
    Verified lib (rowFromDb pg) resolveKey genesisPrev audit.rows := by
  induction honest with
  | new keyring => trivial
  | lose before ih | rotate newId newKey before ih => exact ih kept
  | @append audit after signed event key id before active appended ih =>
    obtain ⟨found, rowHash, resolved, computed, rows, _⟩ := append_ok appended
    cases resolved.symm.trans active
    have earlier := ih fun one member => kept one (List.mem_append_left _ member)
    obtain ⟨whole, keyed⟩ := kept _ (List.mem_append_right signed List.mem_cons_self)
    rw [rows]
    refine earlier.concat ?_
    rw [earlier.prevHashOf_getLast?, ← before.sequenced.newest]
    exact verified_insertedRow (stable_of_jsonb jsonb whole) keyed computed

/-- The time columns hold what the column type leaves of the times that were signed. -/
theorem PgChainedAudit.Honest.times (honest : Honest lib pg audit signed) :
    List.Forall₂ (fun row one => row.time = timestamptz one.payload.time) audit.rows signed := by
  induction honest with
  | new keyring => exact .nil
  | lose before ih | rotate newId newKey before ih => exact ih
  | append before active appended ih =>
    obtain ⟨key, rowHash, _, _, rows, _⟩ := append_ok appended
    rw [rows]
    exact List.rel_append ih (.cons rfl .nil)

theorem Verified.readRows_rowHash (verified : Verified lib (rowFromDb pg) resolveKey start rows) :
    (readRows (rowFromDb pg) rows).map AuditRow.rowHash = rows.map PgRow.rowHash := by
  induction rows generalizing start with
  | nil => rfl
  | cons stored rest ih =>
    obtain ⟨row, key, reading, _, _, later⟩ := verified
    have first : readRows (rowFromDb pg) (stored :: rest) = row :: readRows (rowFromDb pg) rest := by
      simp [readRows, reading, Except.toOption]
    rw [first, List.map_cons, List.map_cons, ih later, (rowFromDb_ok reading).1]

theorem Verified.kept (verified : Verified lib (rowFromDb pg) resolveKey start rows)
    (times : List.Forall₂ (fun row one => row.time = timestamptz one.payload.time) rows signed)
    (same : signedRows resolveKey (readRows (rowFromDb pg) rows) = signed) :
    ∀ one ∈ signed, one.Kept resolveKey := by
  induction times generalizing start with
  | nil =>
    intro one member
    cases member
  | @cons stored first rest more time _ ih =>
    obtain ⟨row, key, reading, resolved, _, later⟩ := verified
    rw [signedRows_cons reading resolved] at same
    obtain ⟨rfl, remaining⟩ := List.cons.inj same
    intro one member
    rcases List.mem_cons.mp member with rfl | listed
    · exact ⟨time.symm.trans (rowFromDb_ok reading).2.2.2.2.symm, resolved⟩
    · exact ih later remaining one listed

/-- Where the hashes tell what was signed apart, an accepted log has kept it. -/
theorem PgChainedAudit.Honest.kept (honest : Honest lib pg audit signed) (injective : CanonicalInjective lib)
    (sound : HmacSound lib (hmacInputs lib signed ++ hmacInputs lib (signedRows audit.keyring.get
      (readRows (rowFromDb pg) audit.rows))))
    (verified : Verified lib (rowFromDb pg) audit.keyring.get genesisPrev audit.rows) :
    ∀ one ∈ signed, one.Kept audit.keyring.get := by
  have shown := verified.chainOf
  rw [verified.readRows_rowHash] at shown
  have front := honest.chainOf.signed_prefix injective shown sound fun _ member => member
  have length : (signedRows audit.keyring.get (readRows (rowFromDb pg) audit.rows)).length =
      signed.length := by
    have digests := congrArg List.length (shown.hashes.symm.trans honest.chainOf.hashes)
    rwa [HashChain.length_digests, HashChain.length_digests] at digests
  exact verified.kept honest.times (front.eq_of_length length)

end Stored

theorem stored_log_verifies_iff (lib : HashLib) (pg : PgLib)
    (jsonb : ∀ document, pg.jsonb document = document) (audit : PgChainedAudit) (signed : List Signed)
    (honest : audit.Honest lib pg signed) :
    ((∀ one ∈ signed, one.Kept audit.keyring.get) →
      audit.Accepted lib pg (largestId (audit.rows.map PgRow.id))) ∧
    (CanonicalInjective lib → HmacSound lib (hmacInputs lib signed ++
        hmacInputs lib (signedRows audit.keyring.get (readRows (rowFromDb pg) audit.rows))) →
      audit.Accepted lib pg (largestId (audit.rows.map PgRow.id)) →
      ∀ one ∈ signed, one.Kept audit.keyring.get) := by
  constructor
  · intro kept
    exact honest.accepted_iff.mpr (honest.verified jsonb kept)
  · intro injective sound accepted
    exact honest.kept injective sound (honest.accepted_iff.mp accepted)

/-- Libraries whose hash shows a byte of the key and a byte of the time. -/
def plainLib : HashLib where
  canonical payload := .ok [(payload.time % 256).toNat.toUInt8]
  hmac key message := List.replicate 30 1 ++ [key.headD 0, message.getLastD 0]
  hmac_length := by simp

/-- The log of one event at the time, under the key `v1`. -/
def stampedLog (time : Time) : PgChainedAudit where
  rows := [insertedRow demoPg 1 { demoEvent with time } genesisPrev
    (plainLib.hmac [0x6b] (genesisPrev ++ [(time % 256).toNat.toUInt8])) "v1"]
  sequence := 2
  keyring := ⟨"v1", AList.singleton "v1" [0x6b]⟩

theorem stampedLog_honest (time : Time) : (stampedLog time).Honest plainLib demoPg
      [⟨[0x6b], { demoEvent with time }.payload "v1"⟩] :=
  .append (.new ⟨"v1", AList.singleton "v1" [0x6b]⟩) rfl rfl

/-- Events at a whole microsecond, with a change of the key between them, verify when they are read
back. -/
theorem whole_time_verifies : ∃ after, PgChainedAudit.append plainLib demoPg
      { stampedLog pgEpoch with keyring := (stampedLog pgEpoch).keyring.rotate "v2" [0x6c] }
      { demoEvent with time := pgEpoch } = .ok (2, after) ∧ after.Accepted plainLib demoPg 2 := by
  refine ⟨_, rfl, ?_⟩
  have rotated := (stampedLog_honest pgEpoch).rotate "v2" [0x6c]
  refine (stored_log_verifies_iff plainLib demoPg (fun _ => rfl) _ _ (rotated.append rfl rfl)).1 ?_
  intro one member
  rcases List.mem_pair.mp member with rfl | rfl
  · exact ⟨by decide, rfl⟩
  · exact ⟨by decide, rfl⟩

/-- A nanosecond is hashed and not stored, and a key id used again for another key leaves the row
without its own. -/
theorem odd_time_and_reused_key_id_fail : ¬ (stampedLog (pgEpoch + 1)).Accepted plainLib demoPg 1 ∧
      ¬ PgChainedAudit.Accepted plainLib demoPg
        { stampedLog pgEpoch with
          keyring := (stampedLog pgEpoch).keyring.rotate "v1" [0x6c] } 1 := by
  constructor <;> exact PgChainedAudit.not_accepted _ _ (by decide +kernel)

end SpectonCr.Audit
