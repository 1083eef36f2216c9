import SpectonCr.Base.HashChain
import SpectonCr.Base.Json
import SpectonCr.Base.Result
import SpectonCr.Common.Model

namespace SpectonCr.Audit

abbrev Bytes := List UInt8

inductive Category where
  | auth
  | push
  | pull
  | delete
  | sign
  | promote
  | policy
  | key
  | admin
  | rebuild
  | scan
  deriving DecidableEq

def Category.asStr : Category → String
  | .auth => "auth"
  | .push => "push"
  | .pull => "pull"
  | .delete => "delete"
  | .sign => "sign"
  | .promote => "promote"
  | .policy => "policy"
  | .key => "key"
  | .admin => "admin"
  | .rebuild => "rebuild"
  | .scan => "scan"

def Category.all : List Category :=
  [.auth, .push, .pull, .delete, .sign, .promote, .policy, .key, .admin, .rebuild, .scan]

def Category.parse (text : String) : Option Category :=
  Category.all.find? fun category => category.asStr = text

@[simp] theorem Category.parse_asStr (category : Category) :
    Category.parse category.asStr = some category := by
  cases category <;> decide

structure Actor where
  sub : String
  (role sourceIp ua : Option String)

structure Subject where
  (tenant project repo reference digest : Option String)

inductive Outcome where
  | success
  | failure (code : String)

def Outcome.asStr : Outcome → String
  | .success => "success"
  | .failure _ => "failure"

def Outcome.errorCode : Outcome → Option String
  | .success => none
  | .failure code => some code

/-- An event; `time` is the source's `at`. -/
structure AuditEvent where
  time : Time
  category : Category
  action : String
  actor : Actor
  subject : Option Subject
  outcome : Outcome
  attributes : List (String × Json)

structure AuditRow where
  id : Int
  event : AuditEvent
  tenant : Option String
  prevHash : Option Bytes
  rowHash : Bytes
  hmacKeyId : String

/-- What is hashed of an event. -/
structure CanonicalPayload where
  time : Time
  (category action actorSub : String)
  (actorIp actorUa : Option String)
  subject : Option Subject
  outcome : String
  errorCode : Option String
  attributes : List (String × Json)
  hmacKeyId : String

inductive AuditError where
  | sqlx (reason : String)
  | hash (reason : String)
  | serde (reason : String)
  | unknownKey (id : String)
  | chainBroken (id : Int) (expected actual : String)
  | notFound (id : Int)
  | unavailable (reason : String)

def AuditError.display : AuditError → String
  | .sqlx reason => "sqlx: " ++ reason
  | .hash reason => "hash: " ++ reason
  | .serde reason => "serde: " ++ reason
  | .unknownKey id => "unknown hmac key id: " ++ id
  | .chainBroken id expected actual =>
    "chain broken at id " ++ toString id ++ ": expected " ++ expected ++ ", got " ++ actual
  | .notFound id => "not found: " ++ toString id
  | .unavailable reason => "backend unavailable: " ++ reason

structure ChainVerdict where
  ok : Bool
  checked : Nat
  brokenAt : Option Int
  (expectedHash actualHash : Option String)
  deriving DecidableEq

/-- The library functions: `serde_json::to_vec` on payloads, and HMAC-SHA256. -/
structure HashLib where
  canonical : CanonicalPayload → Except String Bytes
  hmac : Bytes → Bytes → Bytes
  hmac_length : ∀ key message, (hmac key message).length = 32

def genesisPrev : Bytes := List.replicate 32 0

def AuditEvent.payload (event : AuditEvent) (hmacKeyId : String) : CanonicalPayload :=
  { time := event.time
    category := event.category.asStr
    action := event.action
    actorSub := event.actor.sub
    actorIp := event.actor.sourceIp
    actorUa := event.actor.ua
    subject := event.subject
    outcome := event.outcome.asStr
    errorCode := event.outcome.errorCode
    attributes := event.attributes
    hmacKeyId }

def AuditRow.payload (row : AuditRow) : CanonicalPayload := row.event.payload row.hmacKeyId

def tenantOf (event : AuditEvent) : Option String := event.subject.bind Subject.tenant

open HashChain

section Hashing

variable (lib : HashLib)

def canonicalBytes (event : AuditEvent) (hmacKeyId : String) : Except String Bytes :=
  lib.canonical (event.payload hmacKeyId)

def computeRowHash (hmacKey prevHash : Bytes) (event : AuditEvent) (hmacKeyId : String) :
    Except AuditError Bytes :=
  match canonicalBytes lib event hmacKeyId with
  | .error reason => .error (.hash ("canonical json: " ++ reason))
  | .ok canonical => .ok (lib.hmac hmacKey (prevHash ++ canonical))

/-- The loop of `verify_chain`, over rows as a backend stores them. `shown` is how
the backend reports the stored hash of a row after a hash of the wrong length. -/
def verifyRows {Stored : Type} (read : Stored → Except AuditError AuditRow)
    (resolveKey : String → Except AuditError Bytes) (shown : Option Bytes → Option String) :
    Nat → Bytes → List Stored → Except AuditError ChainVerdict
  | checked, _, [] => .ok ⟨true, checked, none, none, none⟩
  | checked, expectedPrev, stored :: rest =>
    (read stored).bind fun row =>
      (resolveKey row.hmacKeyId).bind fun key =>
        if expectedPrev.length ≠ 32 then
          .ok ⟨false, checked, some row.id, some (hexEncode expectedPrev), shown row.prevHash⟩
        else if row.prevHash.any fun storedPrev => storedPrev ≠ expectedPrev then
          .ok ⟨false, checked, some row.id, some (hexEncode expectedPrev), row.prevHash.map hexEncode⟩
        else
          (computeRowHash lib key expectedPrev row.event row.hmacKeyId).bind fun expected =>
            if expected ≠ row.rowHash then
              .ok ⟨false, checked, some row.id, some (hexEncode expected), some (hexEncode row.rowHash)⟩
            else verifyRows read resolveKey shown (checked + 1) row.rowHash rest

/-- A row that passes the checks of the loop after the given hash. -/
structure LinkedRow (key prevHash : Bytes) (row : AuditRow) : Prop where
  stored : ∀ storedPrev, row.prevHash = some storedPrev → storedPrev = prevHash
  hashed : computeRowHash lib key prevHash row.event row.hmacKeyId = .ok row.rowHash

/-- Rows that pass the loop one after the other. -/
def Verified {Stored : Type} (read : Stored → Except AuditError AuditRow)
    (resolveKey : String → Except AuditError Bytes) : Bytes → List Stored → Prop
  | _, [] => True
  | prevHash, stored :: rest =>
    ∃ row key, read stored = .ok row ∧ resolveKey row.hmacKeyId = .ok key ∧
      LinkedRow lib key prevHash row ∧ Verified read resolveKey row.rowHash rest

variable {lib}

variable {event : AuditEvent}

theorem computeRowHash_ok {key prevHash hash : Bytes} {keyId : String} :
    computeRowHash lib key prevHash event keyId = .ok hash ↔
      ∃ canonical, lib.canonical (event.payload keyId) = .ok canonical ∧
        hash = lib.hmac key (prevHash ++ canonical) := by
  unfold computeRowHash canonicalBytes
  cases lib.canonical (event.payload keyId) with
  | error reason => simp
  | ok canonical => simp [eq_comm]

theorem computeRowHash_length {key prevHash hash : Bytes} {keyId : String}
    (computed : computeRowHash lib key prevHash event keyId = .ok hash) : hash.length = 32 := by
  obtain ⟨canonical, _, rfl⟩ := computeRowHash_ok.mp computed
  exact lib.hmac_length key (prevHash ++ canonical)

section Loop

variable {Stored : Type} {read : Stored → Except AuditError AuditRow}
  {resolveKey : String → Except AuditError Bytes}

theorem verified_cons (reading : read stored = .ok row) (resolved : resolveKey row.hmacKeyId = .ok key) :
    Verified lib read resolveKey prevHash (stored :: rest) ↔
      LinkedRow lib key prevHash row ∧ Verified lib read resolveKey row.rowHash rest := by
  constructor
  · rintro ⟨found, other, again, known, linked, later⟩
    cases reading.symm.trans again
    cases resolved.symm.trans known
    exact ⟨linked, later⟩
  · rintro ⟨linked, later⟩
    exact ⟨row, key, reading, resolved, linked, later⟩

theorem verifyRows_ok_iff {shown : Option Bytes → Option String} {checked : Nat}
    {expectedPrev : Bytes} {rows : List Stored} (sized : expectedPrev.length = 32) :
    (∃ verdict, verifyRows lib read resolveKey shown checked expectedPrev rows = .ok verdict ∧
        verdict.ok = true) ↔
      Verified lib read resolveKey expectedPrev rows := by
  induction rows generalizing checked expectedPrev with
  | nil => simp [verifyRows, Verified]
  | cons stored rest ih =>
    cases reading : read stored with
    | error failure => simp [verifyRows, Verified, reading, Except.bind]
    | ok row =>
      cases resolved : resolveKey row.hmacKeyId with
      | error failure => simp [verifyRows, Verified, reading, resolved, Except.bind]
      | ok key =>
        have links : LinkedRow lib key expectedPrev row ↔ _ ∧ _ :=
          ⟨fun link => ⟨link.stored, link.hashed⟩, fun both => ⟨both.1, both.2⟩⟩
        rw [verified_cons reading resolved, links]
        simp only [verifyRows, reading, resolved, Except.bind, sized, ne_eq, not_true_eq_false, if_false]
        by_cases linked : ∀ storedPrev, row.prevHash = some storedPrev → storedPrev = expectedPrev
        · have same : ¬ (row.prevHash.any fun storedPrev =>
              decide (¬ storedPrev = expectedPrev)) = true := by
            cases present : row.prevHash with
            | none => simp
            | some storedPrev => simp [linked storedPrev present]
          rw [if_neg same, and_iff_right linked]
          cases computed : computeRowHash lib key expectedPrev row.event row.hmacKeyId with
          | error failure => simp
          | ok expected =>
            by_cases equal : expected = row.rowHash
            · subst equal
              simp [ih (computeRowHash_length computed)]
            · simp [equal]
        · have broken : (row.prevHash.any fun storedPrev =>
              decide (¬ storedPrev = expectedPrev)) = true := by
            simp only [not_forall] at linked
            obtain ⟨storedPrev, present, differs⟩ := linked
            simp [present, differs]
          rw [if_pos broken]
          exact iff_of_false (by simp) fun verified => linked verified.1.1

end Loop

section Signed

/-- A payload and the key it was hashed under. -/
structure Signed where
  key : Bytes
  payload : CanonicalPayload

/-- The hash of a signed payload after another hash. -/
def link (lib : HashLib) (prevHash : Bytes) (signed : Signed) : Bytes :=
  match lib.canonical signed.payload with
  | .error _ => []
  | .ok canonical => lib.hmac signed.key (prevHash ++ canonical)

/-- The keys and messages at which HMAC is evaluated along a chain. -/
def hmacInputs (lib : HashLib) (signed : List Signed) : List (Bytes × Bytes) :=
  (HashChain.inputs (link lib) genesisPrev signed).filterMap fun input =>
    (lib.canonical input.2.payload).toOption.map fun canonical =>
      (input.2.key, input.1 ++ canonical)

/-- HMAC does not collide on these inputs, and does not give the genesis value. -/
structure HmacSound (lib : HashLib) (asked : List (Bytes × Bytes)) : Prop where
  injective : ∀ one ∈ asked, ∀ two ∈ asked, lib.hmac one.1 one.2 = lib.hmac two.1 two.2 → one = two
  notGenesis : ∀ one ∈ asked, lib.hmac one.1 one.2 ≠ genesisPrev

/-- Distinct payloads have distinct canonical forms. -/
def CanonicalInjective (lib : HashLib) : Prop :=
  ∀ one two canonical, lib.canonical one = .ok canonical → lib.canonical two = .ok canonical → one = two

variable {key hash : Bytes} {event : AuditEvent} {lib : HashLib}

theorem link_eq {prevHash : Bytes} {keyId : String}
    (computed : computeRowHash lib key prevHash event keyId = .ok hash) :
    link lib prevHash ⟨key, event.payload keyId⟩ = hash := by
  obtain ⟨canonical, serialised, rfl⟩ := computeRowHash_ok.mp computed
  simp only [link, serialised]

/-- The payload can be written. -/
def Signed.Serialised (lib : HashLib) (signed : Signed) : Prop :=
  ∃ canonical, lib.canonical signed.payload = .ok canonical

theorem link_length (serialised : signed.Serialised lib) (prevHash : Bytes) :
    (link lib prevHash signed).length = 32 := by
  obtain ⟨canonical, written⟩ := serialised
  simp only [link, written]
  exact lib.hmac_length signed.key (prevHash ++ canonical)

private theorem sized_of_mem_inputs (serialised : ∀ one ∈ signed, one.Serialised lib)
    (sized : start.length = 32) (member : input ∈ inputs (link lib) start signed) :
    input.1.length = 32 ∧ input.2.Serialised lib := by
  induction signed generalizing start with
  | nil => cases member
  | cons first rest ih =>
    have here : first.Serialised lib := serialised first List.mem_cons_self
    rcases List.mem_cons.mp member with rfl | later
    · exact ⟨sized, here⟩
    · exact ih (fun one listed => serialised one (List.mem_cons_of_mem first listed))
        (link_length here start) later

variable {signed : List Signed} {start : Bytes}

theorem length_of_mem_digests (serialised : ∀ one ∈ signed, one.Serialised lib)
    (member : hash ∈ digests (link lib) start signed) : hash.length = 32 := by
  induction signed generalizing start with
  | nil => cases member
  | cons first rest ih =>
    rcases List.mem_cons.mp member with rfl | later
    · exact link_length (serialised first List.mem_cons_self) start
    · exact ih (fun one listed => serialised one (List.mem_cons_of_mem first listed)) later

private theorem mem_hmacInputs (member : input ∈ inputs (link lib) genesisPrev signed)
    (written : lib.canonical input.2.payload = .ok canonical) :
    (input.2.key, input.1 ++ canonical) ∈ hmacInputs lib signed :=
  List.mem_filterMap.mpr ⟨input, member, by rw [written]; rfl⟩

/-- The chain's links do not collide where HMAC does not. -/
theorem HmacSound.collisionFree (sound : HmacSound lib (hmacInputs lib one ++ hmacInputs lib two))
    (injective : CanonicalInjective lib) (first : ∀ signed ∈ one, signed.Serialised lib)
    (second : ∀ signed ∈ two, signed.Serialised lib) :
    HashChain.CollisionFree (link lib) genesisPrev (inputs (link lib) genesisPrev one ++
        inputs (link lib) genesisPrev two) := by
  have asked : ∀ input ∈ inputs (link lib) genesisPrev one ++ inputs (link lib) genesisPrev two,
      input.1.length = 32 ∧ ∃ canonical, lib.canonical input.2.payload = .ok canonical ∧
        link lib input.1 input.2 = lib.hmac input.2.key (input.1 ++ canonical) ∧
        (input.2.key, input.1 ++ canonical) ∈ hmacInputs lib one ++ hmacInputs lib two := by
    intro input member
    have sized : genesisPrev.length = 32 := rfl
    rcases List.mem_append.mp member with left | right
    · obtain ⟨length, canonical, written⟩ := sized_of_mem_inputs first sized left
      exact ⟨length, canonical, written, by simp only [link, written],
        List.mem_append_left _ (mem_hmacInputs left written)⟩
    · obtain ⟨length, canonical, written⟩ := sized_of_mem_inputs second sized right
      exact ⟨length, canonical, written, by simp only [link, written],
        List.mem_append_right _ (mem_hmacInputs right written)⟩
  constructor
  · rintro ⟨prev, signed⟩ member ⟨otherPrev, other⟩ otherMember same
    obtain ⟨length, canonical, written, linked, evaluated⟩ := asked _ member
    obtain ⟨otherLength, otherCanonical, otherWritten, otherLinked, otherEvaluated⟩ := asked _ otherMember
    rw [linked, otherLinked] at same
    obtain ⟨keys, messages⟩ := Prod.mk.inj (sound.injective _ evaluated _ otherEvaluated same)
    obtain ⟨rfl, rfl⟩ := List.append_inj messages (length.trans otherLength.symm)
    have payloads := injective _ _ _ written otherWritten
    obtain ⟨key, payload⟩ := signed
    obtain ⟨otherKey, otherPayload⟩ := other
    obtain rfl : key = otherKey := keys
    obtain rfl : payload = otherPayload := payloads
    rfl
  · intro input member
    obtain ⟨_, canonical, _, linked, evaluated⟩ := asked input member
    rw [linked]
    exact sound.notGenesis _ evaluated

/-- The rows that can be read, and what they claim to be signed. -/
def readRows {Stored : Type} (read : Stored → Except AuditError AuditRow)
    (stored : List Stored) : List AuditRow :=
  stored.filterMap fun row => (read row).toOption

def signedRows (resolveKey : String → Except AuditError Bytes) (rows : List AuditRow) : List Signed :=
  rows.filterMap fun row => (resolveKey row.hmacKeyId).toOption.map fun key => ⟨key, row.payload⟩

variable {Stored : Type} {read : Stored → Except AuditError AuditRow} {stored : List Stored}

theorem mem_readRows {row : AuditRow} : row ∈ readRows read stored ↔ ∃ one ∈ stored, read one = .ok row := by
  simp only [readRows, List.mem_filterMap, toOption_eq_some]

variable {resolveKey : String → Except AuditError Bytes}

theorem signedRows_cons {stored : Stored} {rest : List Stored} {row : AuditRow}
    (reading : read stored = .ok row) (resolved : resolveKey row.hmacKeyId = .ok key) :
    signedRows resolveKey (readRows read (stored :: rest)) =
      ⟨key, row.payload⟩ :: signedRows resolveKey (readRows read rest) := by
  simp [readRows, signedRows, reading, resolved, Except.toOption]

theorem signedRows_append (read : Stored → Except AuditError AuditRow)
    (resolveKey : String → Except AuditError Bytes) (one two : List Stored) :
    signedRows resolveKey (readRows read (one ++ two)) =
      signedRows resolveKey (readRows read one) ++ signedRows resolveKey (readRows read two) := by
  simp [readRows, signedRows, List.filterMap_append]

/-- A log as a chain: its payloads and hashes are those of what was signed. -/
structure ChainOf (lib : HashLib) (start : Bytes) (signed : List Signed)
    (payloads : List CanonicalPayload) (hashes : List Bytes) : Prop where
  payloads : payloads = signed.map Signed.payload
  hashes : hashes = HashChain.digests (link lib) start signed
  serialised : ∀ one ∈ signed, one.Serialised lib

variable {payloads : List CanonicalPayload} {hashes : List Bytes}

theorem ChainOf.snoc {keyId : String} (chain : ChainOf lib start signed payloads hashes)
    (computed : computeRowHash lib key (tip (link lib) start signed) event keyId = .ok hash) :
    ChainOf lib start (signed ++ [⟨key, event.payload keyId⟩])
      (payloads ++ [event.payload keyId]) (hashes ++ [hash]) := by
  have linked := link_eq computed
  refine ⟨?_, ?_, ?_⟩
  · rw [List.map_append, chain.payloads]
    rfl
  · rw [digests_append, chain.hashes]
    simp only [digests, linked]
  · intro one member
    rcases List.mem_append.mp member with old | new
    · exact chain.serialised one old
    · obtain rfl := List.mem_singleton.mp new
      obtain ⟨canonical, written, _⟩ := computeRowHash_ok.mp computed
      exact ⟨canonical, written⟩

theorem Verified.chainOf (verified : Verified lib read resolveKey start stored) :
    ChainOf lib start (signedRows resolveKey (readRows read stored))
      ((readRows read stored).map AuditRow.payload)
      ((readRows read stored).map AuditRow.rowHash) := by
  induction stored generalizing start with
  | nil => exact ⟨rfl, rfl, by intro one member; cases member⟩
  | cons first rest ih =>
    obtain ⟨row, key, reading, resolved, linked, later⟩ := verified
    obtain ⟨payloads, hashes, serialised⟩ := ih later
    have rows : readRows read (first :: rest) = row :: readRows read rest := by
      simp [readRows, reading, Except.toOption]
    have hash : link lib start ⟨key, row.payload⟩ = row.rowHash := link_eq linked.hashed
    rw [signedRows_cons reading resolved, rows]
    refine ⟨?_, ?_, ?_⟩
    · rw [List.map_cons, payloads, List.map_cons]
    · rw [List.map_cons, hashes, digests, hash]
    · intro one member
      rcases List.mem_cons.mp member with rfl | listed
      · obtain ⟨canonical, written, _⟩ := computeRowHash_ok.mp linked.hashed
        exact ⟨canonical, written⟩
      · exact serialised one listed

variable {honest : List Signed} {honestPayloads : List CanonicalPayload} {honestHashes : List Bytes}

/-- What a log claims to be signed is a beginning of what was, when its hashes all occur. -/
theorem ChainOf.signed_prefix (injective : CanonicalInjective lib)
    (original : ChainOf lib genesisPrev honest honestPayloads honestHashes)
    (shown : ChainOf lib genesisPrev signed payloads hashes)
    (sound : HmacSound lib (hmacInputs lib honest ++ hmacInputs lib signed))
    (occurs : ∀ hash ∈ hashes, hash ∈ honestHashes) : signed <+: honest := by
  have free := sound.collisionFree injective original.serialised shown.serialised
  refine prefix_of_digests_subset free (List.subset_append_right _ _) (List.subset_append_left _ _) ?_
  intro hash member
  rw [← original.hashes]
  rw [← shown.hashes] at member
  exact occurs hash member

/-- A log whose hashes all occur in an honest one repeats its beginning. -/
theorem ChainOf.prefix_of_subset (injective : CanonicalInjective lib)
    (original : ChainOf lib genesisPrev honest honestPayloads honestHashes)
    (shown : ChainOf lib genesisPrev signed payloads hashes)
    (sound : HmacSound lib (hmacInputs lib honest ++ hmacInputs lib signed))
    (occurs : ∀ hash ∈ hashes, hash ∈ honestHashes) : payloads <+: honestPayloads := by
  rw [original.payloads, shown.payloads]
  exact (original.signed_prefix injective shown sound occurs).map Signed.payload

end Signed

end Hashing

end SpectonCr.Audit
