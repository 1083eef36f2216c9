import SpectonCr.Audit.Export
import SpectonCr.Audit.StoredLog

/-! The answers of `query` and `get` on a table that verifies. -/

namespace SpectonCr.Audit

/-- A filter; `untilTime` is the source's `until`. -/
structure AuditQuery where
  (since untilTime : Option Time)
  actor : Option String
  category : Option Category
  tenant : Option String
  limit : Nat

/-- The `WHERE` clause; a column that is `NULL` equals no text. -/
def AuditQuery.selects (query : AuditQuery) (row : PgRow) : Bool :=
  (query.since.all fun since => timestamptz since ≤ row.time) &&
    (query.untilTime.all fun last => row.time ≤ timestamptz last) &&
    (query.actor.all fun actor => row.actorSub = actor) &&
    (query.category.all fun category => row.category = category.asStr) &&
    (query.tenant.all fun tenant => row.tenant = some tenant)

/-- `limit as i64`, with the default of a hundred rows. -/
def AuditQuery.rowLimit (query : AuditQuery) : Int :=
  Int.bmod (if query.limit = 0 then 100 else query.limit : Nat) (2 ^ 64)

/-- The columns outside the hashed payload that a reader is shown. -/
def PgRow.unsigned (row : PgRow) : Int × Option String × Option Bytes := (row.id, row.tenant, row.prevHash)

section Answers

variable (pg : PgLib)

def PgChainedAudit.query (audit : PgChainedAudit) (query : AuditQuery) : Except AuditError (List AuditRow) :=
  if query.rowLimit < 0 then .error (.sqlx "LIMIT must not be negative")
  else (((orderById audit.rows).reverse.filter query.selects).take query.rowLimit.toNat).mapM (rowFromDb pg)

/-- The two tables answer alike. -/
def PgChainedAudit.SameAnswers (one two : PgChainedAudit) : Prop :=
  (∀ query, one.query pg query = two.query pg query) ∧ ∀ id, one.get pg id = two.get pg id

/-- Rows with one signed content. -/
def SameSigned (one two : PgRow) : Prop :=
  ∃ first second, rowFromDb pg one = .ok first ∧ rowFromDb pg two = .ok second ∧
    first.payload = second.payload ∧ first.rowHash = second.rowHash

/-- Rows that a reader cannot tell apart. -/
structure Alike (one two : PgRow) : Prop where
  id : one.id = two.id
  reading : rowFromDb pg one = rowFromDb pg two
  selected : ∀ query : AuditQuery, query.selects one = query.selects two

variable {pg}

theorem Category.asStr_of_parse (parsed : Category.parse text = some category) : text = category.asStr := by
  have found := List.find?_some parsed
  exact (of_decide_eq_true found).symm

theorem Category.asStr_injective {one two : Category} (same : one.asStr = two.asStr) : one = two := by
  have parsed := Category.parse_asStr one
  rw [same, Category.parse_asStr] at parsed
  exact (Option.some.inj parsed).symm

theorem rowFromDb_columns {stored : PgRow} {row : AuditRow} (reading : rowFromDb pg stored = .ok row) :
    (row.id, row.tenant, row.prevHash) = stored.unsigned ∧ stored.category = row.event.category.asStr ∧
      row.event.actor = ⟨stored.actorSub, none, stored.actorIp, stored.actorUa⟩ := by
  unfold rowFromDb at reading
  split at reading
  · cases reading
  rename_i category parsed
  obtain ⟨outcome, _, reading⟩ := bind_ok reading
  obtain ⟨subject, _, reading⟩ := bind_ok reading
  cases reading
  exact ⟨rfl, Category.asStr_of_parse parsed, rfl⟩

theorem Outcome.eq_of_columns {one two : Outcome} (outcomes : one.asStr = two.asStr)
    (codes : one.errorCode = two.errorCode) : one = two := by
  cases one with
  | success =>
    cases two with
    | success => rfl
    | failure code => cases codes
  | failure code =>
    cases two with
    | success => cases codes
    | failure other =>
      cases codes
      rfl

/-- The payload is the event without the actor's role. -/
theorem AuditEvent.eq_of_payload {one two : AuditEvent} {oneKey twoKey : String}
    (same : one.payload oneKey = two.payload twoKey) (roles : one.actor.role = two.actor.role) :
    one = two ∧ oneKey = twoKey := by
  obtain ⟨time, category, action, ⟨sub, role, ip, ua⟩, subject, outcome, attributes⟩ := one
  obtain ⟨time', category', action', ⟨sub', role', ip', ua'⟩, subject', outcome', attributes'⟩ := two
  simp only [AuditEvent.payload, CanonicalPayload.mk.injEq] at same roles
  obtain ⟨rfl, categories, rfl, rfl, rfl, rfl, rfl, outcomes, codes, rfl, rfl⟩ := same
  obtain rfl := Category.asStr_injective categories
  obtain rfl := Outcome.eq_of_columns outcomes codes
  obtain rfl := roles
  exact ⟨rfl, rfl⟩

theorem SameSigned.alike {one two : PgRow} (same : SameSigned pg one two)
    (unsigned : one.unsigned = two.unsigned) : Alike pg one two := by
  obtain ⟨first, second, firstRead, secondRead, payloads, hashes⟩ := same
  obtain ⟨firstShown, firstCategory, firstActor⟩ := rowFromDb_columns firstRead
  obtain ⟨secondShown, secondCategory, secondActor⟩ := rowFromDb_columns secondRead
  have roles : first.event.actor.role = second.event.actor.role := by
    rw [firstActor, secondActor]
  obtain ⟨events, keys⟩ := AuditEvent.eq_of_payload payloads roles
  have rows : first = second := by
    obtain ⟨id, event, tenant, prevHash, rowHash, keyId⟩ := first
    obtain ⟨id', event', tenant', prevHash', rowHash', keyId'⟩ := second
    have shown := firstShown.trans (unsigned.trans secondShown.symm)
    simp only [Prod.mk.injEq] at shown
    obtain ⟨rfl, rfl, rfl⟩ := shown
    obtain rfl : event = event' := events
    obtain rfl : keyId = keyId' := keys
    obtain rfl : rowHash = rowHash' := hashes
    rfl
  subst rows
  have times := (rowFromDb_ok firstRead).2.2.2.2.symm.trans (rowFromDb_ok secondRead).2.2.2.2
  have actors := congrArg Actor.sub (firstActor.symm.trans secondActor)
  have categories := firstCategory.trans secondCategory.symm
  have tenants : one.tenant = two.tenant := congrArg (fun shown => shown.2.1) unsigned
  refine ⟨congrArg Prod.fst unsigned, firstRead.trans secondRead.symm, ?_⟩
  intro query
  simp only at actors
  simp only [AuditQuery.selects, times, actors, categories, tenants]

theorem SameSigned.unsigned_eq (same : SameSigned pg one two)
    (reading : rowFromDb pg one = rowFromDb pg two) : one.unsigned = two.unsigned := by
  obtain ⟨first, second, firstRead, secondRead, _, _⟩ := same
  cases firstRead.symm.trans (reading.trans secondRead)
  exact (rowFromDb_columns firstRead).1.symm.trans (rowFromDb_columns secondRead).1

section Lists

theorem mapM_eq_of_forall₂ {one two : List PgRow} (alike : List.Forall₂ (Alike pg) one two) :
    one.mapM (rowFromDb pg) = two.mapM (rowFromDb pg) := by
  induction alike with
  | nil => rfl
  | cons first _ ih => rw [List.mapM_cons, List.mapM_cons, first.reading, ih]

theorem find_eq_of_forall₂ {one two : List PgRow} (alike : List.Forall₂ (Alike pg) one two) (id : Int) :
    (one.find? fun row => row.id = id).map (rowFromDb pg) =
      (two.find? fun row => row.id = id).map (rowFromDb pg) := by
  induction alike with
  | nil => rfl
  | @cons first second _ _ same _ ih =>
    rw [List.find?_cons, List.find?_cons, same.id]
    split
    · exact congrArg some same.reading
    · exact ih

variable {rows : List PgRow}

/-- With distinct identifiers, a row is found under its own in any order. -/
theorem find_of_mem (primary : (rows.map PgRow.id).Nodup) {row : PgRow}
    (member : row ∈ rows) : (rows.find? fun other => other.id = row.id) = some row := by
  induction rows with
  | nil => cases member
  | cons first rest ih =>
    obtain ⟨fresh, distinct⟩ := List.nodup_cons.mp primary
    rw [List.find?_cons]
    rcases List.mem_cons.mp member with rfl | later
    · simp
    have other : first.id ≠ row.id := by
      intro same
      exact fresh (same ▸ List.mem_map_of_mem later)
    simp only [other, decide_false]
    exact ih distinct later

theorem find_orderById (primary : (rows.map PgRow.id).Nodup) (id : Int) :
    ((orderById rows).find? fun row => row.id = id) = rows.find? fun row => row.id = id := by
  have sorted : ((orderById rows).map PgRow.id).Nodup :=
    ((List.perm_insertionSort _ rows).map PgRow.id).nodup_iff.mpr primary
  cases found : rows.find? fun row => row.id = id with
  | none =>
    rw [List.find?_eq_none] at found ⊢
    intro row member
    exact found row (mem_orderById.mp member)
  | some row =>
    obtain rfl : row.id = id := by simpa using List.find?_some found
    exact find_of_mem sorted (mem_orderById.mpr (List.mem_of_find?_eq_some found))

end Lists

theorem PgChainedAudit.get_eq (audit : PgChainedAudit) (id : Int) :
    audit.get pg id = ((audit.rows.find? fun row => row.id = id).map (rowFromDb pg)).getD
        (.error (.notFound id)) := by
  unfold PgChainedAudit.get
  cases audit.rows.find? fun row => row.id = id <;> rfl

theorem PgChainedAudit.get_of_mem {audit : PgChainedAudit} (primary : (audit.rows.map PgRow.id).Nodup)
    {row : PgRow} (member : row ∈ audit.rows) : audit.get pg row.id = rowFromDb pg row := by
  rw [audit.get_eq, find_of_mem primary member]
  rfl

theorem sameAnswers_of_alike {one two : PgChainedAudit} (onePrimary : (one.rows.map PgRow.id).Nodup)
    (twoPrimary : (two.rows.map PgRow.id).Nodup)
    (alike : List.Forall₂ (Alike pg) (orderById one.rows) (orderById two.rows)) : one.SameAnswers pg two := by
  constructor
  · intro query
    have selected : List.Forall₂ (Alike pg) ((orderById one.rows).reverse.filter query.selects)
        ((orderById two.rows).reverse.filter query.selects) := by
      refine List.rel_filter ?_ (List.forall₂_reverse_iff.mpr alike)
      intro first second same
      simp only [same.selected query]
    unfold PgChainedAudit.query
    split
    · rfl
    · exact mapM_eq_of_forall₂ (List.forall₂_take _ selected)
  · intro id
    rw [one.get_eq, two.get_eq, ← find_orderById onePrimary, ← find_orderById twoPrimary,
      find_eq_of_forall₂ alike]

theorem unsigned_of_gets {one two : List PgRow} (same : List.Forall₂ (SameSigned pg) one two)
    (ids : one.map PgRow.id = two.map PgRow.id)
    (readings : ∀ first ∈ one, ∀ second ∈ two, first.id = second.id →
      rowFromDb pg first = rowFromDb pg second) : one.map PgRow.unsigned = two.map PgRow.unsigned := by
  induction same with
  | nil => rfl
  | @cons first second front back row _ ih =>
    obtain ⟨id, rest⟩ := List.cons.inj ids
    rw [List.map_cons, List.map_cons,
      row.unsigned_eq (readings first List.mem_cons_self second List.mem_cons_self id)]
    rw [ih rest fun one member other listed =>
      readings one (List.mem_cons_of_mem _ member) other (List.mem_cons_of_mem _ listed)]

theorem alike_of_unsigned {one two : List PgRow} (same : List.Forall₂ (SameSigned pg) one two)
    (unsigned : one.map PgRow.unsigned = two.map PgRow.unsigned) : List.Forall₂ (Alike pg) one two := by
  induction same with
  | nil => exact .nil
  | cons row _ ih =>
    obtain ⟨here, rest⟩ := List.cons.inj unsigned
    exact .cons (row.alike here) (ih rest)

end Answers

section Chains

variable {lib : HashLib} {pg : PgLib} {resolveKey : String → Except AuditError Bytes}

variable {start : Bytes}

theorem Verified.sameSigned {one two : List PgRow} (first : Verified lib (rowFromDb pg) resolveKey start one)
    (second : Verified lib (rowFromDb pg) resolveKey start two)
    (same : signedRows resolveKey (readRows (rowFromDb pg) one) =
      signedRows resolveKey (readRows (rowFromDb pg) two)) : List.Forall₂ (SameSigned pg) one two := by
  induction one generalizing start two with
  | nil =>
    cases two with
    | nil => exact .nil
    | cons stored rest =>
      obtain ⟨row, key, reading, resolved, _, _⟩ := second
      rw [signedRows_cons reading resolved] at same
      cases same
  | cons stored rest ih =>
    obtain ⟨row, key, reading, resolved, linked, later⟩ := first
    rw [signedRows_cons reading resolved] at same
    cases two with
    | nil => cases same
    | cons other more =>
      obtain ⟨otherRow, otherKey, otherReading, otherResolved, otherLinked, otherLater⟩ := second
      rw [signedRows_cons otherReading otherResolved] at same
      obtain ⟨signed, remaining⟩ := List.cons.inj same
      have hashes : row.rowHash = otherRow.rowHash := by
        have link := (link_eq linked.hashed).symm
        rw [show (⟨key, row.event.payload row.hmacKeyId⟩ : Signed) =
          ⟨otherKey, otherRow.event.payload otherRow.hmacKeyId⟩ from signed] at link
        exact link.trans (link_eq otherLinked.hashed)
      rw [← hashes] at otherLater
      refine .cons ⟨row, otherRow, reading, otherReading, congrArg Signed.payload signed, hashes⟩
        (ih later otherLater remaining)

variable {rows : List PgRow}

theorem Verified.readable (verified : Verified lib (rowFromDb pg) resolveKey start rows) {stored : PgRow}
    (member : stored ∈ rows) : ∃ row, rowFromDb pg stored = .ok row := by
  induction rows generalizing start with
  | nil => cases member
  | cons first rest ih =>
    obtain ⟨row, key, reading, _, _, later⟩ := verified
    rcases List.mem_cons.mp member with rfl | listed
    · exact ⟨row, reading⟩
    · exact ih later listed

theorem Verified.times (verified : Verified lib (rowFromDb pg) resolveKey start rows)
    (typed : ∀ row ∈ rows, timestamptz row.time = row.time) :
    List.Forall₂ (fun row one => row.time = timestamptz one.payload.time) rows
      (signedRows resolveKey (readRows (rowFromDb pg) rows)) := by
  induction rows generalizing start with
  | nil => exact .nil
  | cons stored rest ih =>
    obtain ⟨row, key, reading, resolved, _, later⟩ := verified
    rw [signedRows_cons reading resolved]
    refine .cons ?_ (ih later fun one member => typed one (List.mem_cons_of_mem _ member))
    have kept := typed stored List.mem_cons_self
    rw [← (rowFromDb_ok reading).2.2.2.2] at kept
    exact (rowFromDb_ok reading).2.2.2.2.symm.trans kept.symm

theorem PgChainedAudit.Honest.signedRows_eq (jsonb : ∀ document, pg.jsonb document = document)
    (honest : Honest lib pg audit signed) (kept : ∀ one ∈ signed, one.Kept resolveKey) :
    signedRows resolveKey (readRows (rowFromDb pg) audit.rows) = signed := by
  induction honest with
  | new keyring => rfl
  | lose before ih | rotate newId newKey before ih => exact ih kept
  | @append audit after signed event key id before active appended ih =>
    obtain ⟨found, rowHash, _, _, rows, _⟩ := append_ok appended
    have earlier := ih fun one member => kept one (List.mem_append_left _ member)
    obtain ⟨whole, keyed⟩ := kept _ (List.mem_append_right signed List.mem_cons_self)
    obtain ⟨row, reading, payload⟩ := rowFromDb_insertedRow (stable_of_jsonb jsonb whole)
      audit.sequence (prevHashOf (newest? audit.rows)) rowHash audit.keyring.activeId
    have signer : row.hmacKeyId = audit.keyring.activeId := (rowFromDb_ok reading).2.2.1
    have resolved : resolveKey row.hmacKeyId = .ok key := by
      rw [signer]
      exact keyed
    rw [rows, signedRows_append, earlier, signedRows_cons reading resolved, AuditRow.payload, signer, payload]
    rfl

theorem PgChainedAudit.Honest.increasing {audit : PgChainedAudit} {signed : List Signed}
    (honest : Honest lib pg audit signed) : (audit.rows.map PgRow.id).Pairwise (· < ·) := by
  induction honest with
  | new keyring => exact .nil
  | lose before ih | rotate newId newKey before ih => exact ih
  | append before active appended ih =>
    obtain ⟨key, rowHash, _, _, rows, _⟩ := append_ok appended
    rw [rows, List.map_append, List.pairwise_append]
    refine ⟨ih, List.pairwise_singleton _ _, ?_⟩
    intro old member new last
    obtain ⟨row, listed, rfl⟩ := List.mem_map.mp member
    obtain rfl := List.mem_singleton.mp last
    exact before.sequenced.ahead row listed

end Chains

section Altered

variable {lib : HashLib} {pg : PgLib} {audit : PgChainedAudit} {signed : List Signed}
  {rows : List PgRow}

theorem verified_of_whole {altered : PgChainedAudit} {first last : Int} {verdict : ChainVerdict}
    (start : first ≤ 1) (whole : ∀ row ∈ altered.rows, first ≤ row.id ∧ row.id ≤ last)
    (reported : altered.verifyChain lib pg first last = .ok verdict) (success : verdict.ok = true) :
    Verified lib (rowFromDb pg) altered.keyring.get genesisPrev (orderById altered.rows) := by
  have slice : (altered.rows.filter fun row => first ≤ row.id && row.id ≤ last) = altered.rows := by
    rw [List.filter_eq_self]
    intro row member
    simp [whole row member]
  simp only [PgChainedAudit.verifyChain, slice, not_lt.mpr start, if_false] at reported
  exact (verifyRows_ok_iff rfl).mp ⟨verdict, reported, success⟩

/-- A table of as many rows whose hashes are all from the honest one shows what was signed. -/
theorem PgChainedAudit.Honest.signedRows_altered (honest : audit.Honest lib pg signed)
    (injective : CanonicalInjective lib) (length : rows.length = audit.rows.length)
    (occurs : ∀ row ∈ rows, row.rowHash ∈ audit.rows.map PgRow.rowHash)
    (sound : HmacSound lib (hmacInputs lib signed ++
      hmacInputs lib (signedRows audit.keyring.get (readRows (rowFromDb pg) rows))))
    (verified : Verified lib (rowFromDb pg) audit.keyring.get genesisPrev rows) :
    signedRows audit.keyring.get (readRows (rowFromDb pg) rows) = signed := by
  have shown := verified.chainOf
  rw [verified.readRows_rowHash] at shown
  have front : signedRows audit.keyring.get (readRows (rowFromDb pg) rows) <+: signed := by
    refine honest.chainOf.signed_prefix injective shown sound ?_
    intro hash member
    obtain ⟨row, listed, rfl⟩ := List.mem_map.mp member
    exact occurs row listed
  refine front.eq_of_length ?_
  have original := congrArg List.length honest.chainOf.hashes
  have claimed := congrArg List.length shown.hashes
  rw [HashChain.length_digests, List.length_map] at original claimed
  rw [← claimed, length, original]

theorem PgChainedAudit.Honest.sameSigned (honest : audit.Honest lib pg signed)
    (jsonb : ∀ document, pg.jsonb document = document) (typed : ∀ row ∈ rows, timestamptz row.time = row.time)
    (shown : signedRows audit.keyring.get (readRows (rowFromDb pg) rows) = signed)
    (verified : Verified lib (rowFromDb pg) audit.keyring.get genesisPrev rows) :
    List.Forall₂ (SameSigned pg) rows audit.rows := by
  have times := verified.times typed
  rw [shown] at times
  have kept := verified.kept times shown
  exact verified.sameSigned (honest.verified jsonb kept) (shown.trans (honest.signedRows_eq jsonb kept).symm)

/-- Sorted identifiers without repetition are the honest ones when each of them is. -/
theorem PgChainedAudit.Honest.ids_eq (honest : audit.Honest lib pg signed)
    (primary : (rows.map PgRow.id).Nodup) (length : rows.length = audit.rows.length)
    (known : ∀ row ∈ rows, row.id ∈ audit.rows.map PgRow.id) :
    (orderById rows).map PgRow.id = audit.rows.map PgRow.id := by
  have sorted : ((orderById rows).map PgRow.id).Perm (rows.map PgRow.id) :=
    (List.perm_insertionSort _ rows).map PgRow.id
  have inside : (rows.map PgRow.id).Subperm (audit.rows.map PgRow.id) := by
    refine primary.subperm ?_
    intro id member
    obtain ⟨row, listed, rfl⟩ := List.mem_map.mp member
    exact known row listed
  have same : (rows.map PgRow.id).Perm (audit.rows.map PgRow.id) :=
    inside.perm_of_length_le (by simp [length])
  have ordered : ((orderById rows).map PgRow.id).Pairwise (· ≤ ·) :=
    List.pairwise_map.mpr (List.pairwise_insertionSort _ rows)
  exact (sorted.trans same).eq_of_pairwise' ordered (honest.increasing.imp fun less => le_of_lt less)

end Altered

/-- After any alteration that verifies, the answers are those of the honest table exactly when the
columns outside the payload are. -/
theorem verified_log_answers_iff (lib : HashLib) (pg : PgLib)
    (jsonb : ∀ document, pg.jsonb document = document) (injective : CanonicalInjective lib)
    (audit : PgChainedAudit) (signed : List Signed) (honest : audit.Honest lib pg signed)
    (rows : List PgRow) (length : rows.length = audit.rows.length)
    (typed : ∀ row ∈ rows, timestamptz row.time = row.time)
    (primary : (rows.map PgRow.id).Nodup)
    (occurs : ∀ row ∈ rows, row.rowHash ∈ audit.rows.map PgRow.rowHash)
    (sound : HmacSound lib (hmacInputs lib signed ++ hmacInputs lib (signedRows audit.keyring.get
      (readRows (rowFromDb pg) (orderById rows)))))
    (first last : Int) (start : first ≤ 1)
    (whole : ∀ row ∈ rows, first ≤ row.id ∧ row.id ≤ last) (verdict : ChainVerdict)
    (reported : PgChainedAudit.verifyChain lib pg { audit with rows } first last = .ok verdict)
    (success : verdict.ok = true) :
    PgChainedAudit.SameAnswers pg { audit with rows } audit ↔
      (orderById rows).map PgRow.unsigned = audit.rows.map PgRow.unsigned := by
  have verified : Verified lib (rowFromDb pg) audit.keyring.get genesisPrev (orderById rows) :=
    verified_of_whole start whole reported success
  have shown : signedRows audit.keyring.get (readRows (rowFromDb pg) (orderById rows)) =
      signed := by
    refine honest.signedRows_altered injective ?_ ?_ sound verified
    · rw [orderById, List.length_insertionSort, length]
    · exact fun row member => occurs row (mem_orderById.mp member)
  have same : List.Forall₂ (SameSigned pg) (orderById rows) audit.rows := by
    refine honest.sameSigned jsonb ?_ shown verified
    exact fun row member => typed row (mem_orderById.mp member)
  have honestPrimary : (audit.rows.map PgRow.id).Nodup := honest.increasing.imp fun less => ne_of_lt less
  have honestOrder := orderById_eq_self honest.sequenced.ordered
  constructor
  · rintro ⟨_, gets⟩
    have readable : ∀ row ∈ rows, audit.get pg row.id = rowFromDb pg row := by
      intro row member
      have stored : PgChainedAudit.get pg { audit with rows } row.id = rowFromDb pg row :=
        PgChainedAudit.get_of_mem primary member
      rw [← gets row.id, stored]
    have known : ∀ row ∈ rows, row.id ∈ audit.rows.map PgRow.id := by
      intro row member
      obtain ⟨shownRow, reading⟩ := verified.readable (mem_orderById.mpr member)
      exact (get_ok ((readable row member).trans reading)).2
    refine unsigned_of_gets same (honest.ids_eq primary length known) ?_
    intro one member two listed ids
    rw [← readable one (mem_orderById.mp member), ids]
    exact PgChainedAudit.get_of_mem honestPrimary listed
  · intro unsigned
    refine sameAnswers_of_alike primary honestPrimary ?_
    rw [honestOrder]
    exact alike_of_unsigned same unsigned

def demoRow : PgRow := insertedRow demoPg 1 demoEvent genesisPrev demoHash "v1"

/-- The table of one event. -/
def demoTable : PgChainedAudit := ⟨[demoRow], 2, ⟨"v1", AList.singleton "v1" [0x6b]⟩⟩

theorem demoTable_honest : demoTable.Honest demoLib demoPg [⟨[0x6b], demoEvent.payload "v1"⟩] := by
  have active : Keyring.activeKey ⟨"v1", AList.singleton "v1" [0x6b]⟩ = .ok [0x6b] := rfl
  have hash : computeRowHash demoLib [0x6b] (prevHashOf (newest? [])) demoEvent "v1" =
      .ok demoHash := demo_hash
  refine .append (.new ⟨"v1", AList.singleton "v1" [0x6b]⟩) active
    (show PgChainedAudit.append demoLib demoPg _ demoEvent = .ok (1, demoTable) from ?_)
  simp only [PgChainedAudit.append, active, hash, Except.bind]
  rfl

/-- An error code beside a success is neither hashed nor shown. -/
def codedRows : List PgRow := [{ demoRow with errorCode := some "denied" }]

theorem coded_rows_answer_alike :
    PgChainedAudit.SameAnswers demoPg { demoTable with rows := codedRows } demoTable := by
  obtain ⟨verdict, reported, success⟩ := exists_ok_of_map
    (show (PgChainedAudit.verifyChain demoLib demoPg { demoTable with rows := codedRows }
      1 1).toOption.map ChainVerdict.ok = some true by decide +kernel)
  refine (verified_log_answers_iff demoLib demoPg (fun _ => rfl) demo_canonical_injective demoTable
    _ demoTable_honest codedRows rfl ?_ (List.nodup_singleton _) ?_ demo_hmac_sound 1 1 le_rfl
    ?_ verdict reported success).mpr rfl
  · intro row member
    obtain rfl := List.mem_singleton.mp member
    rfl
  · intro row member
    obtain rfl := List.mem_singleton.mp member
    exact List.mem_cons_self
  · intro row member
    obtain rfl := List.mem_singleton.mp member
    exact ⟨le_rfl, le_rfl⟩

/-- The row under another tenant verifies, and is shown to that tenant. -/
theorem moved_row_verifies : demoTable.Honest demoLib demoPg [⟨[0x6b], demoEvent.payload "v1"⟩] ∧
      (PgChainedAudit.verifyChain demoLib demoPg
        { demoTable with rows := [{ demoRow with tenant := some "acme" }] } 1 1).toOption =
          some ⟨true, 1, none, none, none⟩ ∧
      (demoTable.query demoPg ⟨none, none, none, none, some "acme", 10⟩).toOption.map List.length = some 0 ∧
      (PgChainedAudit.query demoPg { demoTable with rows := [{ demoRow with tenant := some "acme" }] }
        ⟨none, none, none, none, some "acme", 10⟩).toOption.map List.length = some 1 := by
  refine ⟨demoTable_honest, ?_⟩
  decide +kernel

end SpectonCr.Audit
