import SpectonCr.Registry.PromoteWhole

namespace SpectonCr.Registry

open Storage Gc

/-- Which calls to the stores fail, by their number, with the text of the error. -/
abbrev Faults := Nat → Option String

/-- A promotion under way, with the state after each of its calls. -/
structure Session where
  stores : PromoteStores
  calls : Nat
  states : List PromoteStores

def Session.start (stores : PromoteStores) : Session := ⟨stores, 0, []⟩

inductive CallError where
  | notFound
  | failed (text : String)

inductive Side where
  | source
  | dest

def PromoteStores.on (stores : PromoteStores) : Side → ObjectStore
  | .source => stores.store
  | .dest => stores.target

/-- A step of a promotion. -/
abbrev Calls (Answer : Type) := Session → Except RegistryError Answer × Session

namespace Calls

variable (lib : PromoteLib) (faults : Faults)

/-- The session after a call that left these stores. -/
def next (session : Session) (stores : PromoteStores) : Session :=
  ⟨stores, session.calls + 1, session.states ++ [stores]⟩

def call {Answer : Type} (run : PromoteStores → Except CallError Answer × PromoteStores)
    (session : Session) : Except CallError Answer × Session :=
  match faults session.calls with
  | some text => (.error (.failed text), next session session.stores)
  | none => ((run session.stores).1, next session (run session.stores).2)

/-- A call that only reads. -/
def read {Answer : Type} (answer : PromoteStores → Except CallError Answer) (session : Session) :
    Except CallError Answer × Session :=
  call faults (fun stores => (answer stores, stores)) session

def head (side : Side) (path : String) : Session → Except CallError Nat × Session :=
  read faults fun stores =>
    match (stores.on side).lookup (.ofString path) with
    | some bytes => .ok bytes.size
    | none => .error .notFound

def get (side : Side) (path : String) : Session → Except CallError Bytes × Session :=
  read faults fun stores =>
    match (stores.on side).lookup (.ofString path) with
    | some bytes => .ok bytes
    | none => .error .notFound

def put (path : String) (bytes : Bytes) : Session → Except CallError Unit × Session :=
  call faults fun stores => (.ok (), stores.write (.ofString path) bytes)

/-- The store's own copy. -/
def copy (source dest : String) : Session → Except CallError Unit × Session :=
  call faults fun stores =>
    match stores.store.lookup (.ofString source) with
    | some bytes => (.ok (), stores.write (.ofString dest) bytes)
    | none => (.error .notFound, stores)

/-- The `map_err` of a call. -/
def orRefuse {Answer : Type} (refusal : CallError → RegistryError)
    (result : Except CallError Answer × Session) : Except RegistryError Answer × Session :=
  (result.1.mapError refusal, result.2)

/-- `e.to_string()` of a call for a path. -/
def errorText (path : String) : CallError → String
  | .notFound => lib.missing (.ofString path)
  | .failed text => text

def storeGet (side : Side) (path : String) : Calls Bytes := fun session =>
  andThen (orRefuse (fun
      | .notFound => .manifestUnknown path
      | .failed text => .storage text) (get faults side path session))
    fun bytes session =>
      orRefuse (fun error => .storage (errorText lib path error)) (read faults (fun _ => .ok bytes) session)

def storeExists (side : Side) (path : String) : Calls Bool := fun session =>
  match head faults side path session with
  | (.ok _, session) => (.ok true, session)
  | (.error .notFound, session) => (.ok false, session)
  | (.error (.failed text), session) => (.error (.storage text), session)

def headSize (side : Side) (path : String) : Calls Nat := fun session =>
  orRefuse (fun error => .storage (errorText lib path error)) (head faults side path session)

def storePut (path : String) (bytes : Bytes) : Calls Unit := fun session =>
  orRefuse (fun error => .storage (errorText lib path error)) (put faults path bytes session)

/-- The reading and writing in place of a store's own copy. -/
def getAndPut (source dest : String) : Calls Nat := fun session =>
  andThen (storeGet lib faults .source source session) fun bytes session =>
    andThen (storePut lib faults dest bytes session) fun _ session => (.ok bytes.size, session)

def copyObject (source dest : String) : Calls Nat := fun session =>
  if session.stores.dest.isNone ∧ source = dest then headSize lib faults .source source session
  else
    andThen (storeExists faults .dest dest session) fun present session =>
      if present then headSize lib faults .dest dest session
      else if session.stores.dest.isNone then
        match copy faults source dest session with
        | (.ok _, session) => headSize lib faults .dest dest session
        | (.error _, session) => getAndPut lib faults source dest session
      else getAndPut lib faults source dest session

def resolveDigest (image : ImageRef) : Calls (String × Bytes) := fun session =>
  let digest : Except RegistryError String × Session :=
    if Text.startsWith image.reference "sha256:" then (.ok image.reference, session)
    else
      let link := storeGet lib faults .source (image.path tagLinkPath image.reference) session
      ((link.1.mapError fun _ => .tagUnknown image.reference).map
        fun bytes => Text.trim (fromUtf8Lossy bytes), link.2)
  andThen digest fun digest session =>
    let manifest := storeGet lib faults .source (image.path manifestPath digest) session
    ((manifest.1.mapError fun _ => .manifestUnknown digest).map fun bytes => (digest, bytes), manifest.2)

def copyReferenced (src dst : ImageRef) : List String → Nat × Nat → Calls (Nat × Nat)
  | [], progress => fun session => (.ok progress, session)
  | digest :: rest, progress => fun session =>
    let copyAs (layout : String → String → String → String → String) : Calls (Nat × Nat) :=
      fun session =>
        andThen (copyObject lib faults (src.path layout digest) (dst.path layout digest) session)
          fun copied session =>
            copyReferenced src dst rest (progress.1 + copied, progress.2 + 1) session
    andThen (storeExists faults .source (src.path blobPath digest) session) fun blob session =>
      if blob then copyAs blobPath session
      else andThen (storeExists faults .source (src.path manifestPath digest) session) fun manifest session =>
          if manifest then copyAs manifestPath session
          else (.error (.blobUnknown digest), session)

def copySignatureBlobs (src dst : ImageRef) : List String → Nat → Calls Nat
  | [], bytesCopied => fun session => (.ok bytesCopied, session)
  | digest :: rest, bytesCopied => fun session =>
    andThen (storeExists faults .source (src.path blobPath digest) session) fun present session =>
      if present then
        andThen (copyObject lib faults (src.path blobPath digest) (dst.path blobPath digest) session)
          fun copied session => copySignatureBlobs src dst rest (bytesCopied + copied) session
      else copySignatureBlobs src dst rest bytesCopied session

/-- The reads of the signature's link and manifest. -/
def findSignature (src : ImageRef) (srcDigest : String) : Calls (Option (String × List String)) :=
  fun session =>
    let link := src.path tagLinkPath (signatureTag srcDigest)
    andThen (storeExists faults .source link session) fun linked session =>
      if !linked then (.ok none, session)
      else andThen (storeGet lib faults .source link session) fun bytes session =>
        let sigDigest := Text.trim (fromUtf8Lossy bytes)
        andThen (storeExists faults .source (src.path manifestPath sigDigest) session) fun stored session =>
            if !stored then (.ok none, session)
            else andThen (storeGet lib faults .source (src.path manifestPath sigDigest) session)
              fun manifest session =>
                match lib.parse manifest with
                | .ok document => (.ok (some (sigDigest, collectReferencedDigests document)), session)
                | .error _ => (.ok (some (sigDigest, [])), session)

def copySignatures (src dst : ImageRef) (srcDigest : String) (bytesCopied : Nat) :
    Calls (Nat × Nat) := fun session =>
  andThen (findSignature lib faults src srcDigest session) fun found session =>
    match found with
    | none => (.ok (bytesCopied, 0), session)
    | some (sigDigest, referenced) =>
      andThen (copySignatureBlobs lib faults src dst referenced bytesCopied session)
        fun bytesCopied session =>
          andThen (copyObject lib faults (src.path manifestPath sigDigest)
            (dst.path manifestPath sigDigest) session) fun copied session =>
              andThen (storePut lib faults (dst.path tagLinkPath (signatureTag srcDigest))
                sigDigest.toUTF8 session) fun _ session => (.ok (bytesCopied + copied, 1), session)

/-- Everything a promotion does before the link of its tag. -/
def copies (request : PromoteRequest) (srcDigest : String) (digests : List String) :
    Calls (Nat × Nat × Nat) := fun session =>
  let src := request.source
  let dst := request.dest
  andThen (copyReferenced lib faults src dst digests (0, 0) session) fun progress session =>
    andThen (copyObject lib faults (src.path manifestPath srcDigest)
      (dst.path manifestPath srcDigest) session) fun copied session =>
        andThen (if request.includeSignatures then
            copySignatures lib faults src dst srcDigest (progress.1 + copied) session
          else (.ok (progress.1 + copied, 0), session)) fun signed session =>
            (.ok (signed.1, progress.2, signed.2), session)

/-- The link of the tag, which comes last. -/
def linkTag (request : PromoteRequest) (srcDigest : String) : Calls Unit := fun session =>
  if Text.startsWith request.dest.reference "sha256:" then (.ok (), session)
  else storePut lib faults (request.dest.path tagLinkPath request.dest.reference) srcDigest.toUTF8 session

def promote (id : Uuid) (request : PromoteRequest) : Calls PromoteOutcome := fun session =>
  andThen (resolveDigest lib faults request.source session) fun (srcDigest, bytes) session =>
    match lib.parse bytes with
    | .error reason => (.error (.manifestInvalid reason), session)
    | .ok manifest =>
      let digests := collectReferencedDigests manifest
      if request.mode = .dryRun then
        (.ok ⟨id, srcDigest, srcDigest, "dry_run", 0, digests.length, 0, some true⟩, session)
      else
        andThen (copies lib faults request srcDigest digests session) fun totals session =>
          andThen (linkTag lib faults request srcDigest session) fun _ session =>
            (.ok ⟨id, srcDigest, srcDigest, "done", totals.1, totals.2.1, totals.2.2, none⟩, session)

end Calls

/-- The calls do what the run without failures does, or end in an error after a failure. -/
def Follows {Answer : Type} (faults : Faults) (result : Except RegistryError Answer × Session)
    (expected : Except RegistryError Answer × PromoteStores) : Prop :=
  (result.1 = expected.1 ∧ result.2.stores = expected.2) ∨
    (∃ error, result.1 = .error error) ∧ ∃ number, (faults number).isSome = true

namespace Follows

variable {faults : Faults} {First Answer : Type}

theorem andThen (follows : Follows faults first expected)
    (follow : First → PromoteStores → Except RegistryError Answer × PromoteStores)
    (later : ∀ value session, expected = (.ok value, session.stores) → Follows faults (next value
      session) (follow value session.stores)) :
    Follows faults (SpectonCr.andThen first next) (SpectonCr.andThen expected follow) := by
  obtain ⟨answer, session⟩ := first
  obtain ⟨wanted, stores⟩ := expected
  rcases follows with ⟨same, state⟩ | ⟨⟨error, failed⟩, fault⟩
  · obtain rfl : answer = wanted := same
    obtain rfl : session.stores = stores := state
    cases answer with
    | error error => exact .inl ⟨rfl, rfl⟩
    | ok value => exact later value session rfl
  · obtain rfl : answer = .error error := failed
    exact .inr ⟨⟨error, rfl⟩, fault⟩

theorem of_eq : Follows faults (answer, session) (answer, session.stores) := .inl ⟨rfl, rfl⟩

theorem of_ok (follows : Follows faults result expected) (success : result.1 = .ok answer) :
    expected = (.ok answer, result.2.stores) := by
  rcases follows with ⟨same, state⟩ | ⟨⟨error, failed⟩, _⟩
  · exact Prod.ext (same.symm.trans success) state.symm
  · cases success.symm.trans failed

theorem of_clean (follows : Follows (fun _ => none) result expected) :
    result.1 = expected.1 ∧ result.2.stores = expected.2 := by
  rcases follows with same | ⟨_, number, fault⟩
  · exact same
  · cases fault

end Follows

namespace Calls

section Single

variable {lib : PromoteLib} {faults : Faults} {Answer : Type}

theorem call_cases (run : PromoteStores → Except CallError Answer × PromoteStores) (session : Session) :
    (∃ text, faults session.calls = some text ∧
      call faults run session = (.error (.failed text), next session session.stores)) ∨
    call faults run session = ((run session.stores).1, next session (run session.stores).2) := by
  unfold call
  cases fault : faults session.calls with
  | some text => exact .inl ⟨text, rfl, rfl⟩
  | none => exact .inr rfl

theorem orRefuse_follows (refusal : CallError → RegistryError)
    (run : PromoteStores → Except CallError Answer × PromoteStores) (session : Session) :
    Follows faults (orRefuse refusal (call faults run session))
      ((run session.stores).1.mapError refusal, (run session.stores).2) := by
  rcases @call_cases faults Answer run session with ⟨text, fault, result⟩ | result
  · rw [result]
    exact .inr ⟨⟨_, rfl⟩, session.calls, by rw [fault]; rfl⟩
  · rw [result]
    exact .inl ⟨rfl, rfl⟩

theorem read_follows {Value : Type} (refusal : CallError → RegistryError) (side : Side)
    (path : String) (value : Bytes → Value) (session : Session) :
    Follows faults (orRefuse refusal (read faults (fun stores =>
        match (stores.on side).lookup (.ofString path) with
        | some bytes => .ok (value bytes)
        | none => .error .notFound) session))
      (match (session.stores.on side).lookup (.ofString path) with
        | some bytes => .ok (value bytes)
        | none => .error (refusal .notFound), session.stores) := by
  have follows := @orRefuse_follows faults Value refusal (fun stores =>
    (match (stores.on side).lookup (.ofString path) with
      | some bytes => .ok (value bytes)
      | none => .error .notFound, stores)) session
  dsimp only at follows
  cases found : (session.stores.on side).lookup (.ofString path) with
  | none | some bytes =>
    simp only [found] at follows
    exact follows

theorem storeGet_follows (side : Side) (path : String) (session : Session) :
    Follows faults (storeGet lib faults side path session)
      (match (session.stores.on side).lookup (.ofString path) with
        | some bytes => .ok bytes
        | none => .error (.manifestUnknown path), session.stores) := by
  have body : ∀ (bytes : Bytes) (later : Session), Follows faults
      (orRefuse (fun error => .storage (errorText lib path error))
        (read faults (fun _ => .ok bytes) later)) (.ok bytes, later.stores) :=
    fun bytes later => orRefuse_follows _ _ later
  have whole := (@read_follows faults Bytes (fun
      | .notFound => .manifestUnknown path
      | .failed text => .storage text) side path id session).andThen
    (fun bytes stores => (.ok bytes, stores)) (fun bytes later _ => body bytes later)
  cases found : (session.stores.on side).lookup (.ofString path) with
  | none | some bytes =>
    rw [found] at whole
    exact whole

theorem storeExists_follows (stored : present = true ↔ StorePath.ofString path ∈ session.stores.on side) :
    Follows faults (storeExists faults side path session) (.ok present, session.stores) := by
  unfold storeExists head read
  rcases @call_cases faults Nat (fun stores =>
      (match (stores.on side).lookup (.ofString path) with
        | some bytes => .ok bytes.size
        | none => .error .notFound, stores)) session with ⟨text, fault, result⟩ | result
  · rw [result]
    exact .inr ⟨⟨_, rfl⟩, session.calls, by rw [fault]; rfl⟩
  rw [result]
  cases found : (session.stores.on side).lookup (.ofString path) with
  | none =>
    have absent : present = false :=
      Bool.eq_false_iff.mpr fun there => AList.lookup_eq_none.mp found (stored.mp there)
    rw [absent]
    exact .inl ⟨rfl, rfl⟩
  | some bytes =>
    rw [stored.mpr (Table.mem_of_lookup found)]
    exact .inl ⟨rfl, rfl⟩

theorem headSize_follows (side : Side) (path : String) (session : Session) :
    Follows faults (headSize lib faults side path session)
      (match (session.stores.on side).lookup (.ofString path) with
        | some bytes => .ok bytes.size
        | none => .error (.storage (lib.missing (.ofString path))), session.stores) :=
  read_follows _ side path ByteArray.size session

theorem storePut_follows (path : String) (bytes : Bytes) (session : Session) :
    Follows faults (storePut lib faults path bytes session)
      (.ok (), session.stores.write (.ofString path) bytes) :=
  orRefuse_follows _ _ session

variable {session : Session} {expected : Except RegistryError Answer × PromoteStores}

/-- The rule for a check of existence: the two cases, in a session with the same stores. -/
theorem follows_of_exists {side : Side} {path : String}
    {next : Bool → Session → Except RegistryError Answer × Session}
    (present : StorePath.ofString path ∈ session.stores.on side →
      ∀ later : Session, session.stores = later.stores → Follows faults (next true later) expected)
    (absent : StorePath.ofString path ∉ session.stores.on side →
      ∀ later : Session, session.stores = later.stores → Follows faults (next false later) expected) :
    Follows faults (andThen (storeExists faults side path session) next) expected := by
  by_cases stored : StorePath.ofString path ∈ session.stores.on side
  · refine (storeExists_follows (iff_of_true rfl stored)).andThen (fun _ _ => expected) ?_
    intro answer later same
    obtain ⟨answered, state⟩ := Prod.mk.inj same
    cases answered
    exact present stored later state
  · refine (storeExists_follows (iff_of_false Bool.false_ne_true stored)).andThen (fun _ _ => expected) ?_
    intro answer later same
    obtain ⟨answered, state⟩ := Prod.mk.inj same
    cases answered
    exact absent stored later state

theorem follows_of_get {side : Side} {path : String} {bytes : Bytes}
    (found : (session.stores.on side).lookup (.ofString path) = some bytes)
    {next : Bytes → Session → Except RegistryError Answer × Session}
    (later : ∀ later : Session, session.stores = later.stores → Follows faults (next bytes later) expected) :
    Follows faults (andThen (storeGet lib faults side path session) next) expected := by
  have read := @storeGet_follows lib faults side path session
  rw [found] at read
  refine read.andThen (fun _ _ => expected) ?_
  intro answer last same
  obtain ⟨answered, state⟩ := Prod.mk.inj same
  cases answered
  exact later last state

end Single

section Steps

variable {lib : PromoteLib} {faults : Faults} {src dst : ImageRef}

/-- The effect of reading and writing in place of a copy. -/
def copyAbsent (source dest : String) (stores : PromoteStores) : Except RegistryError Nat × PromoteStores :=
  match stores.store.lookup (.ofString source) with
  | some bytes => (.ok bytes.size, stores.write (.ofString dest) bytes)
  | none => (.error (.manifestUnknown source), stores)

variable (source dest : String) (session : Session)

theorem getAndPut_follows :
    Follows faults (getAndPut lib faults source dest session) (copyAbsent source dest session.stores) := by
  have whole := (@storeGet_follows lib faults .source source session).andThen
    (fun bytes stores => (.ok bytes.size, stores.write (.ofString dest) bytes))
    (fun bytes later _ => (@storePut_follows lib faults dest bytes later).andThen
      (fun _ stores => (.ok bytes.size, stores)) (fun _ _ _ => .of_eq))
  unfold copyAbsent
  simp only [PromoteStores.on] at whole
  cases found : session.stores.store.lookup (.ofString source) with
  | none | some bytes =>
    rw [found] at whole
    exact whole

theorem copy_follows : Follows faults (match copy faults source dest session with
      | (.ok _, session) => headSize lib faults .dest dest session
      | (.error _, session) => getAndPut lib faults source dest session)
      (copyAbsent source dest session.stores) := by
  have fallback := @getAndPut_follows lib faults source dest (next session session.stores)
  unfold copy
  rcases @call_cases faults Unit (fun stores =>
      match stores.store.lookup (.ofString source) with
      | some bytes => (.ok (), stores.write (.ofString dest) bytes)
      | none => (.error .notFound, stores)) session with ⟨text, _, result⟩ | result
  · rw [result]
    exact fallback
  rw [result]
  cases found : session.stores.store.lookup (.ofString source) with
  | none => exact fallback
  | some bytes =>
    have size := @headSize_follows lib faults .dest dest
      (next session (session.stores.write (.ofString dest) bytes))
    have written : ((session.stores.write (.ofString dest) bytes).on .dest).lookup
        (.ofString dest) = some bytes := by
      rw [PromoteStores.on, PromoteStores.lookup_target_write, if_pos rfl]
    simp only [next, written] at size
    simp only [copyAbsent, found]
    exact size

theorem copyObject_follows : Follows faults (copyObject lib faults source dest session)
      (Registry.copyObject lib source dest session.stores) := by
  unfold copyObject Registry.copyObject
  dsimp only
  by_cases same : session.stores.dest.isNone ∧ source = dest
  · rw [if_pos same, if_pos same]
    have size := @headSize_follows lib faults .source source session
    simp only [PromoteStores.on] at size
    cases found : session.stores.store.lookup (.ofString source) with
    | none | some bytes =>
      rw [found] at size
      exact size
  · rw [if_neg same, if_neg same]
    refine follows_of_exists ?_ ?_
    · intro present later same
      have size := @headSize_follows lib faults .dest dest later
      obtain ⟨bytes, found⟩ := Option.isSome_iff_exists.mp (AList.lookup_isSome.mpr present)
      simp only [PromoteStores.on, same] at found size
      rw [found] at size
      simp only [same, found]
      exact size
    · intro absent later same
      have none : session.stores.target.lookup (.ofString dest) = none := AList.lookup_eq_none.mpr absent
      rw [same] at none
      simp only [same, none]
      rw [if_neg Bool.false_ne_true]
      split
      · exact copy_follows source dest later
      · exact getAndPut_follows source dest later

theorem storeGet_map_follows {Value : Type} (path : String) (error : RegistryError)
    (value : Bytes → Value) (session : Session) :
    Follows faults (((storeGet lib faults .source path session).1.mapError fun _ => error).map value,
        (storeGet lib faults .source path session).2)
      (match session.stores.store.lookup (.ofString path) with
        | some bytes => .ok (value bytes)
        | none => .error error, session.stores) := by
  rcases @storeGet_follows lib faults .source path session with ⟨answer, state⟩ | failed
  · refine .inl ⟨?_, state⟩
    rw [answer]
    simp only [PromoteStores.on]
    cases session.stores.store.lookup (.ofString path) <;> rfl
  · obtain ⟨⟨cause, answer⟩, fault⟩ := failed
    refine .inr ⟨⟨error, ?_⟩, fault⟩
    rw [answer]
    rfl

/-- The manifest of a digest, when it is there. -/
def foundManifest (digest : String) : Option Bytes → Except RegistryError (String × Bytes)
  | none => .error (.manifestUnknown digest)
  | some bytes => .ok (digest, bytes)

theorem resolveDigest_follows (image : ImageRef) (session : Session) :
    Follows faults (resolveDigest lib faults image session)
      (Registry.resolveDigest session.stores.store image, session.stores) := by
  have manifest : ∀ (digest : String) (later : Session),
      Follows faults (((storeGet lib faults .source (image.path manifestPath digest)
          later).1.mapError fun _ => .manifestUnknown digest).map fun bytes => (digest, bytes),
        (storeGet lib faults .source (image.path manifestPath digest) later).2)
      (foundManifest digest (later.stores.store.lookup
        (.ofString (image.path manifestPath digest))), later.stores) := by
    intro digest later
    have follows := @storeGet_map_follows lib faults (String × Bytes)
      (image.path manifestPath digest) (.manifestUnknown digest) (fun bytes => (digest, bytes)) later
    cases found : later.stores.store.lookup (.ofString (image.path manifestPath digest)) with
    | none | some bytes =>
      rw [found] at follows
      exact follows
  unfold resolveDigest Registry.resolveDigest
  dsimp only
  split
  · exact manifest image.reference session
  have link := @storeGet_map_follows lib faults String (image.path tagLinkPath image.reference)
    (.tagUnknown image.reference) (fun bytes => Text.trim (fromUtf8Lossy bytes)) session
  have whole := link.andThen (fun digest stores => (foundManifest digest
    (stores.store.lookup (.ofString (image.path manifestPath digest))), stores)) (fun digest later _ =>
      manifest digest later)
  cases found : session.stores.store.lookup (.ofString (image.path tagLinkPath image.reference)) with
  | none | some bytes =>
    rw [found] at whole
    exact whole

variable (digests : List String)

theorem copyReferenced_follows (progress : Nat × Nat) (session : Session) :
    Follows faults (copyReferenced lib faults src dst digests progress session)
      (Registry.copyReferenced lib src dst digests progress session.stores) := by
  induction digests generalizing progress session with
  | nil => exact .of_eq
  | cons digest rest ih =>
    have copyAs : ∀ (layout : String → String → String → String → String) (session : Session),
        Follows faults (SpectonCr.andThen (copyObject lib faults (src.path layout digest)
            (dst.path layout digest) session) fun copied session =>
          copyReferenced lib faults src dst rest (progress.1 + copied, progress.2 + 1) session)
        (SpectonCr.andThen (Registry.copyObject lib (src.path layout digest)
            (dst.path layout digest) session.stores) fun copied stores =>
          Registry.copyReferenced lib src dst rest (progress.1 + copied, progress.2 + 1) stores) :=
      fun layout session => (copyObject_follows _ _ session).andThen _ fun copied later _ =>
        ih (progress.1 + copied, progress.2 + 1) later
    rw [copyReferenced, Registry.copyReferenced]
    dsimp only
    unfold referencedAt
    refine follows_of_exists ?_ ?_
    · intro blob later same
      have stored : StorePath.ofString (src.path blobPath digest) ∈ session.stores.store := blob
      rw [if_pos stored, same]
      exact copyAs blobPath later
    · intro blob later same
      have missing : StorePath.ofString (src.path blobPath digest) ∉ session.stores.store := blob
      rw [if_neg missing, if_neg Bool.false_ne_true]
      refine follows_of_exists ?_ ?_
      · intro manifest last again
        rw [PromoteStores.on, ← same] at manifest
        rw [if_pos manifest, same, again]
        exact copyAs manifestPath last
      · intro manifest last again
        rw [PromoteStores.on, ← same] at manifest
        rw [if_neg manifest, if_neg Bool.false_ne_true, same, again]
        exact .of_eq

theorem copySignatureBlobs_follows (bytesCopied : Nat) (session : Session) :
    Follows faults (copySignatureBlobs lib faults src dst digests bytesCopied session)
      (Registry.copySignatureBlobs lib src dst digests bytesCopied session.stores) := by
  induction digests generalizing bytesCopied session with
  | nil => exact .of_eq
  | cons digest rest ih =>
    rw [copySignatureBlobs, Registry.copySignatureBlobs]
    refine follows_of_exists ?_ ?_
    · intro blob later same
      have stored : StorePath.ofString (src.path blobPath digest) ∈ session.stores.store := blob
      rw [if_pos stored, same]
      exact (copyObject_follows _ _ later).andThen _ fun copied last _ =>
        ih (bytesCopied + copied) last
    · intro blob later same
      have missing : StorePath.ofString (src.path blobPath digest) ∉ session.stores.store := blob
      rw [if_neg missing, same]
      exact ih bytesCopied later

variable (srcDigest : String)

theorem findSignature_follows (session : Session) :
    Follows faults (findSignature lib faults src srcDigest session)
      (.ok (signature? lib session.stores.store src srcDigest), session.stores) := by
  unfold findSignature signature?
  dsimp only
  refine follows_of_exists ?_ ?_
  · intro linked first same
    obtain ⟨link, found⟩ := Option.isSome_iff_exists.mp (AList.lookup_isSome.mpr linked)
    simp only [PromoteStores.on] at found
    rw [found]
    simp only [Bool.not_true, Bool.false_eq_true, if_false]
    have there : (first.stores.on .source).lookup
        (.ofString (src.path tagLinkPath (signatureTag srcDigest))) = some link := by
      rw [PromoteStores.on, ← same]
      exact found
    refine follows_of_get there fun second again => ?_
    refine follows_of_exists ?_ ?_
    · intro stored third more
      obtain ⟨manifest, read⟩ := Option.isSome_iff_exists.mp (AList.lookup_isSome.mpr stored)
      have present : session.stores.store.lookup (.ofString
          (src.path manifestPath (Text.trim (fromUtf8Lossy link)))) = some manifest := by
        rw [same, again]
        exact read
      rw [present]
      simp only [Bool.not_true, Bool.false_eq_true, if_false]
      rw [more] at read
      refine follows_of_get read fun fourth last => ?_
      rw [same, again, more, last]
      cases lib.parse manifest with
      | error reason | ok document => exact .of_eq
    · intro missing third more
      have absent : session.stores.store.lookup (.ofString
          (src.path manifestPath (Text.trim (fromUtf8Lossy link)))) = none := by
        rw [same, again]
        exact AList.lookup_eq_none.mpr missing
      rw [absent, same, again, more]
      exact .of_eq
  · intro missing first same
    have absent : session.stores.store.lookup (.ofString
        (src.path tagLinkPath (signatureTag srcDigest))) = none := AList.lookup_eq_none.mpr missing
    rw [absent, same]
    exact .of_eq

theorem copySignatures_follows (bytesCopied : Nat) (session : Session) :
    Follows faults (copySignatures lib faults src dst srcDigest bytesCopied session)
      (Registry.copySignatures lib src dst srcDigest bytesCopied session.stores) := by
  unfold copySignatures Registry.copySignatures
  refine (findSignature_follows srcDigest session).andThen (fun _ _ => _) ?_
  intro found later same
  obtain ⟨answer, state⟩ := Prod.mk.inj same
  obtain rfl := Except.ok.inj answer
  rw [state]
  cases signature? lib later.stores.store src srcDigest with
  | none => exact .of_eq
  | some signature =>
    obtain ⟨sigDigest, referenced⟩ := signature
    refine (copySignatureBlobs_follows referenced bytesCopied later).andThen _ ?_
    intro total second _
    refine (copyObject_follows _ _ second).andThen _ ?_
    intro copied third _
    exact (@storePut_follows lib faults _ _ third).andThen
      (fun _ stores => (.ok (total + copied, 1), stores)) (fun _ _ _ => .of_eq)

variable (request : PromoteRequest)

theorem copies_follows (srcDigest : String) (digests : List String) (session : Session) :
    Follows faults (copies lib faults request srcDigest digests session)
      (makeCopies lib request srcDigest digests session.stores) := by
  unfold copies makeCopies
  refine (copyReferenced_follows digests (0, 0) session).andThen _ ?_
  intro progress first _
  refine (copyObject_follows _ _ first).andThen _ ?_
  intro size second _
  refine Follows.andThen ?_ _ fun signed third _ => .of_eq
  split
  · exact copySignatures_follows srcDigest (progress.1 + size) second
  · exact .of_eq

theorem linkTag_follows (srcDigest : String) (session : Session) :
    Follows faults (linkTag lib faults request srcDigest session)
      (.ok (), Registry.linkTag request srcDigest session.stores) := by
  unfold linkTag Registry.linkTag
  split
  · exact .of_eq
  · exact storePut_follows _ _ session

/-- Without failures the calls do what `promote` does; with failures they do so unless they end
in an error. -/
theorem promote_follows (id : Uuid) (request : PromoteRequest) (session : Session) :
    Follows faults (promote lib faults id request session)
      (Registry.promote lib id request session.stores) := by
  have resolving := @resolveDigest_follows lib faults request.source session
  unfold promote
  cases resolved : Registry.resolveDigest session.stores.store request.source with
  | error error =>
    rw [resolved] at resolving
    simp only [Registry.promote, resolved]
    exact resolving.andThen (fun _ stores => (.error error, stores)) fun _ _ same => by cases same
  | ok found =>
    obtain ⟨srcDigest, bytes⟩ := found
    rw [resolved] at resolving
    refine resolving.andThen (fun _ _ => Registry.promote lib id request session.stores) ?_
    intro answer later same
    obtain ⟨answered, state⟩ := Prod.mk.inj same
    obtain rfl := Except.ok.inj answered
    rw [state] at resolved ⊢
    cases parsed : lib.parse bytes with
    | error reason =>
      simp only [Registry.promote, resolved, parsed]
      exact .of_eq
    | ok manifest =>
      by_cases dry : request.mode = .dryRun
      · simp only [Registry.promote, resolved, parsed, dry, if_true]
        exact .of_eq
      rw [promote_eq_makeCopies resolved parsed dry id]
      simp only [parsed, dry, if_false]
      refine (copies_follows request srcDigest (collectReferencedDigests manifest) later).andThen
        _ ?_
      intro totals second _
      exact (linkTag_follows request srcDigest second).andThen (fun _ stores => (.ok _, stores))
        (fun _ _ _ => .of_eq)

end Steps

end Calls

end SpectonCr.Registry
