import SpectonCr.Registry.PromoteCalls

/-! The link of a promoted tag between two calls. -/

namespace SpectonCr.Registry

open Storage Gc

/-- The link of the tag that is promoted to. -/
def PromoteRequest.link (request : PromoteRequest) : StorePath :=
  .ofString (request.dest.path tagLinkPath request.dest.reference)

/-- The reference leads to a stored manifest, and every digest found in that is stored, as a blob
or as a manifest. -/
def NamesStored (lib : PromoteLib) (image : ImageRef) (store : ObjectStore) : Prop :=
  ∃ digest bytes, resolveDigest store image = .ok (digest, bytes) ∧
    ∀ document, lib.parse bytes = .ok document → ∀ name ∈ collectReferencedDigests document,
      image.place (.blob name) ∈ store ∨ image.place (.manifest name) ∈ store

/-- A state in which the link has changed is the last one of a promotion that succeeds, and what
the link names is stored in it. -/
def Atomic (lib : PromoteLib) (request : PromoteRequest) (before : PromoteStores)
    (result : Except RegistryError PromoteOutcome × Session) : Prop :=
  ∀ front state back, result.2.states = front ++ state :: back →
    state.target.lookup request.link ≠ before.target.lookup request.link →
      back = [] ∧ (∃ outcome, result.1 = .ok outcome) ∧ NamesStored lib request.dest state.target

/-- Calls that leave the object under a key alone, in every state. -/
structure Leaves (path : StorePath) (before after : Session) : Prop where
  now : after.stores.target.lookup path = before.stores.target.lookup path
  states : ∃ later, after.states = before.states ++ later ∧
    ∀ state ∈ later, state.target.lookup path = before.stores.target.lookup path
  recorded : before.stores ∈ before.states → after.stores ∈ after.states

theorem copied_copyObject {src dst : ImageRef} {stores : PromoteStores} {lib : PromoteLib}
    (destPlain : dst.Plain) (part : Part) :
    stores.Copied src (copyObject lib (src.path part.layout part.digest)
      (dst.path part.layout part.digest) stores).2 := by
  unfold copyObject
  dsimp only
  split
  · split <;> exact .refl src stores
  split
  · exact .refl src stores
  rename_i absent
  split
  · rename_i bytes found
    have copied := copied_ensure destPlain part.below (Table.mem_of_lookup found) bytes
    rwa [PromoteStores.ensure, if_neg (AList.lookup_eq_none.mp absent)] at copied
  · exact .refl src stores

namespace Leaves

variable {path : StorePath} {faults : Faults} {lib : PromoteLib}

theorem refl (session : Session) : Leaves path session session :=
  ⟨rfl, ⟨[], (List.append_nil _).symm, fun _ member => by cases member⟩, id⟩

theorem trans {first second third : Session} (one : Leaves path first second)
    (two : Leaves path second third) : Leaves path first third := by
  obtain ⟨early, front, kept⟩ := one.states
  obtain ⟨late, back, held⟩ := two.states
  refine ⟨two.now.trans one.now, ⟨early ++ late, ?_, ?_⟩, fun given => two.recorded (one.recorded given)⟩
  · rw [back, front, List.append_assoc]
  · intro state member
    rcases List.mem_append.mp member with early | late
    · exact kept state early
    · exact (held state late).trans one.now

theorem andThen {Error First Answer : Type} {session : Session} {first : Except Error First × Session}
    {next : First → Session → Except Error Answer × Session} (here : Leaves path session first.2)
    (later : ∀ value, first.1 = .ok value → Leaves path first.2 (next value first.2).2) :
    Leaves path session (SpectonCr.andThen first next).2 := by
  obtain ⟨answer, last⟩ := first
  cases answer with
  | error error => exact here
  | ok value => exact here.trans (later value rfl)

theorem next {session : Session} {stores : PromoteStores}
    (same : stores.target.lookup path = session.stores.target.lookup path) :
    Leaves path session (Calls.next session stores) := by
  refine ⟨same, ⟨[stores], rfl, ?_⟩, fun _ => List.mem_append_right _ List.mem_cons_self⟩
  intro state member
  rw [List.mem_singleton.mp member]
  exact same

theorem call {Answer : Type} (run : PromoteStores → Except CallError Answer × PromoteStores)
    {session : Session} (kept : (run session.stores).2.target.lookup path = session.stores.target.lookup path) :
    Leaves path session (Calls.call faults run session).2 := by
  rcases @Calls.call_cases faults Answer run session with ⟨text, _, result⟩ | result
  · rw [result]
    exact next rfl
  · rw [result]
    exact next kept

theorem read {Answer : Type} (answer : PromoteStores → Except CallError Answer)
    (session : Session) : Leaves path session (Calls.read faults answer session).2 :=
  call _ rfl

theorem storeGet (side : Side) (text : String) (session : Session) :
    Leaves path session (Calls.storeGet lib faults side text session).2 :=
  andThen (read _ session) fun _ _ => read _ _

theorem storeExists (side : Side) (text : String) (session : Session) :
    Leaves path session (Calls.storeExists faults side text session).2 := by
  have head : Leaves path session (Calls.head faults side text session).2 := read _ session
  unfold Calls.storeExists
  split
  all_goals
    rename_i result
    rw [result] at head
    exact head

theorem headSize (side : Side) (text : String) (session : Session) :
    Leaves path session (Calls.headSize lib faults side text session).2 :=
  read _ session

theorem storePut (kept : StorePath.ofString text = path → session.stores.target.lookup path = some bytes) :
    Leaves path session (Calls.storePut lib faults text bytes session).2 := by
  refine call _ ?_
  rw [PromoteStores.lookup_target_write]
  split
  · rename_i same
    exact (kept same.symm).symm
  · rfl

theorem getAndPut {source dest : String} (apart : StorePath.ofString dest ≠ path) (session : Session) :
    Leaves path session (Calls.getAndPut lib faults source dest session).2 :=
  andThen (storeGet .source source session) fun _ _ =>
    andThen (storePut fun same => (apart same).elim) fun _ _ => refl _

theorem copyObject {source dest : String} (apart : StorePath.ofString dest ≠ path) (session : Session) :
    Leaves path session (Calls.copyObject lib faults source dest session).2 := by
  unfold Calls.copyObject
  split
  · exact headSize .source source session
  refine andThen (storeExists .dest dest session) ?_
  intro present _
  split
  · exact headSize .dest dest _
  split
  · have copy : ∀ session : Session, Leaves path session (Calls.copy faults source dest session).2 := by
      intro session
      refine call _ ?_
      split
      · rw [PromoteStores.lookup_target_write, if_neg apart.symm]
      · rfl
    have copied := copy (Calls.storeExists faults .dest dest session).2
    split
    · rename_i result
      rw [result] at copied
      exact copied.trans (headSize .dest dest _)
    · rename_i result
      rw [result] at copied
      exact copied.trans (getAndPut apart _)
  · exact getAndPut apart _

theorem resolveDigest (image : ImageRef) (session : Session) :
    Leaves path session (Calls.resolveDigest lib faults image session).2 := by
  unfold Calls.resolveDigest
  refine andThen ?_ fun digest _ => storeGet .source _ _
  dsimp only
  split
  · exact refl session
  · exact storeGet .source _ session

section Parts

variable {src dst : ImageRef} (apart : ∀ part, path ≠ dst.place part)
include apart

theorem copyReferenced (digests : List String) (progress : Nat × Nat) (session : Session) :
    Leaves path session (Calls.copyReferenced lib faults src dst digests progress session).2 := by
  induction digests generalizing progress session with
  | nil => exact refl session
  | cons digest rest ih =>
    rw [Calls.copyReferenced]
    refine andThen (storeExists .source _ session) ?_
    intro blob _
    split
    · exact andThen (copyObject (apart (.blob digest)).symm _) fun _ _ => ih _ _
    refine andThen (storeExists .source _ _) ?_
    intro manifest _
    split
    · exact andThen (copyObject (apart (.manifest digest)).symm _) fun _ _ => ih _ _
    · exact refl _

theorem copySignatureBlobs (digests : List String) (bytesCopied : Nat) (session : Session) :
    Leaves path session (Calls.copySignatureBlobs lib faults src dst digests bytesCopied session).2 := by
  induction digests generalizing bytesCopied session with
  | nil => exact refl session
  | cons digest rest ih =>
    rw [Calls.copySignatureBlobs]
    refine andThen (storeExists .source _ session) ?_
    intro blob _
    split
    · exact andThen (copyObject (apart (.blob digest)).symm _) fun _ _ => ih _ _
    · exact ih _ _

omit apart in
theorem findSignature (srcDigest : String) (session : Session) :
    Leaves path session (Calls.findSignature lib faults src srcDigest session).2 := by
  unfold Calls.findSignature
  refine andThen (storeExists .source _ session) ?_
  intro linked _
  split
  · exact refl _
  refine andThen (storeGet .source _ _) ?_
  intro bytes _
  refine andThen (storeExists .source _ _) ?_
  intro stored _
  split
  · exact refl _
  · refine andThen (storeGet .source _ _) ?_
    intro manifest _
    split <;> exact refl _

/-- The signature is copied without touching the object, unless that is the signature's link. -/
theorem copySignatures {srcDigest : String} {session : Session} (safe : ∀ sigDigest referenced,
      signature? lib session.stores.store src srcDigest = some (sigDigest, referenced) →
      StorePath.ofString (dst.path tagLinkPath (signatureTag srcDigest)) = path →
        session.stores.target.lookup path = some sigDigest.toUTF8) (bytesCopied : Nat) :
    Leaves path session (Calls.copySignatures lib faults src dst srcDigest bytesCopied session).2 := by
  unfold Calls.copySignatures
  have search : Leaves path session (Calls.findSignature lib faults src srcDigest session).2 :=
    findSignature srcDigest session
  refine andThen search ?_
  intro found answered
  cases found with
  | none => exact refl _
  | some signature =>
    obtain ⟨sigDigest, referenced⟩ := signature
    have wanted : signature? lib session.stores.store src srcDigest = some (sigDigest, referenced) := by
      rcases @Calls.findSignature_follows lib faults src srcDigest session with ⟨same, _⟩ | failed
      · exact (Except.ok.inj (answered.symm.trans same)).symm
      · obtain ⟨⟨error, failed⟩, _⟩ := failed
        cases answered.symm.trans failed
    have manifest : StorePath.ofString (dst.path manifestPath sigDigest) ≠ path :=
      (apart (.manifest sigDigest)).symm
    refine andThen (copySignatureBlobs apart referenced bytesCopied _) ?_
    intro total _
    refine andThen (copyObject manifest _) ?_
    intro size _
    refine andThen (storePut fun same => ?_) fun _ _ => refl _
    rw [(copyObject manifest _).now, (copySignatureBlobs apart referenced bytesCopied _).now, search.now]
    exact safe sigDigest referenced wanted same

end Parts

/-- The copies leave the object alone under the same proviso, which is only needed when they get
as far as the signature. -/
theorem copies {request : PromoteRequest} {srcDigest : String} {digests : List String}
    {session : Session} (plain : request.source.Plain) (destPlain : request.dest.Plain)
    (apart : ∀ part, path ≠ request.dest.place part)
    (safe : SourceComplete session.stores request.source digests → ∀ sigDigest referenced,
      request.signature lib session.stores.store srcDigest = some (sigDigest, referenced) →
      StorePath.ofString (request.dest.path tagLinkPath (signatureTag srcDigest)) = path →
        session.stores.target.lookup path = some sigDigest.toUTF8) :
    Leaves path session (Calls.copies lib faults request srcDigest digests session).2 := by
  unfold Calls.copies
  have first : Leaves path session
      (Calls.copyReferenced lib faults request.source request.dest digests (0, 0) session).2 :=
    copyReferenced apart digests (0, 0) session
  refine andThen first ?_
  intro progress answered
  obtain ⟨answer, after, run, copied, _, result⟩ := copyReferenced_spec lib plain destPlain digests
    (0, 0) session.stores
  have reached := (Calls.copyReferenced_follows digests (0, 0) session).of_ok answered
  obtain ⟨rfl, rfl⟩ := Prod.mk.inj (run.symm.trans reached)
  have complete : SourceComplete session.stores request.source digests := by
    rcases result with ⟨complete, _⟩ | ⟨_, digest, failed⟩
    · exact complete
    · cases failed
  have manifest : StorePath.ofString (request.dest.path manifestPath srcDigest) ≠ path :=
    (apart (.manifest srcDigest)).symm
  have second := @copyObject path faults lib (request.source.path manifestPath srcDigest) _ manifest
    (Calls.copyReferenced lib faults request.source request.dest digests (0, 0) session).2
  refine andThen second ?_
  intro size stored
  have done := (Calls.copyObject_follows _ _ _).of_ok stored
  have both := copied.trans (done ▸ @copied_copyObject request.source request.dest _ lib destPlain
    (.manifest srcDigest))
  refine andThen ?_ fun _ _ => refl _
  split
  · rename_i included
    refine copySignatures apart (fun sigDigest referenced found same => ?_) _
    rw [second.now, first.now]
    refine safe complete sigDigest referenced ?_ same
    rw [PromoteRequest.signature, if_pos included, ← found]
    exact (signature?_of_copied plain both srcDigest).symm
  · exact refl _

end Leaves

instance (lib : PromoteLib) (request : PromoteRequest) (store : ObjectStore) (srcDigest : String)
    (part : Part) : Decidable (Brings lib request store srcDigest part) :=
  inferInstanceAs (Decidable (∃ copied ∈ carried lib request store srcDigest
    ((references lib.parse store request.source.place (.manifest srcDigest)).map Part.digest),
    copied.tail = part.tail))

/-- What the destination holds for a part once everything is copied: what it held before, or what
the promotion brings. -/
def arrival (lib : PromoteLib) (request : PromoteRequest) (stores : PromoteStores)
    (srcDigest : String) (part : Part) : Option Bytes :=
  (stores.target.lookup (request.dest.place part)).or (if Brings lib request stores.store srcDigest part then
      stores.store.lookup (request.source.place part) else none)

/-- The manifest that the written link names is there by then, with the digests found in it. -/
def NamedArrives (lib : PromoteLib) (request : PromoteRequest) (stores : PromoteStores)
    (srcDigest : String) : Prop :=
  ∃ bytes, arrival lib request stores srcDigest (.manifest (Text.trim srcDigest)) = some bytes ∧
    ∀ document, lib.parse bytes = .ok document → ∀ name ∈ collectReferencedDigests document,
      (arrival lib request stores srcDigest (.blob name)).isSome = true ∨
        (arrival lib request stores srcDigest (.manifest name)).isSome = true

/-- A promotion that gets as far as its links finds, if the signature's link is the link of the
tag, the signature's digest in it already; and either the link needs no change or what it will
name arrives. -/
def LinkSafe (lib : PromoteLib) (request : PromoteRequest) (stores : PromoteStores) : Prop :=
  ∀ srcDigest bytes manifest, resolveDigest stores.store request.source = .ok (srcDigest, bytes) →
    lib.parse bytes = .ok manifest → request.mode ≠ .dryRun →
    SourceComplete stores request.source (collectReferencedDigests manifest) →
    (∀ sigDigest referenced, request.signature lib stores.store srcDigest = some (sigDigest, referenced) →
      StorePath.ofString (request.dest.path tagLinkPath (signatureTag srcDigest)) = request.link →
        stores.target.lookup request.link = some sigDigest.toUTF8) ∧
    (stores.target.lookup request.link = some srcDigest.toUTF8 ∨ NamedArrives lib request stores srcDigest)

section Copied

variable {lib : PromoteLib} {request : PromoteRequest} {stores copied : PromoteStores}
  {srcDigest : String}

/-- The stores hold what arrives. -/
def Arrived (lib : PromoteLib) (request : PromoteRequest) (stores : PromoteStores)
    (srcDigest : String) (copied : PromoteStores) : Prop :=
  ∀ part, copied.target.lookup (request.dest.place part) = arrival lib request stores srcDigest part

theorem makeCopies_arrived (plain : request.source.Plain) (destPlain : request.dest.Plain)
    (resolved : resolveDigest stores.store request.source = .ok (srcDigest, bytes))
    (parsed : lib.parse bytes = .ok manifest)
    (complete : SourceComplete stores request.source (collectReferencedDigests manifest)) :
    ∃ totals copied, makeCopies lib request srcDigest (collectReferencedDigests manifest) stores =
        (.ok totals, linkSignature request srcDigest (request.signature lib stores.store srcDigest) copied) ∧
      Arrived lib request stores srcDigest (linkSignature request srcDigest
        (request.signature lib stores.store srcDigest) copied) := by
  obtain ⟨totals, run⟩ := @makeCopies_bring request stores lib srcDigest bytes plain destPlain
    resolved _ complete
  refine ⟨totals, _, run, ?_⟩
  intro part
  have found : stores.store.lookup (request.source.place (.manifest srcDigest)) = some bytes :=
    resolveDigest_manifest resolved
  have named : (references lib.parse stores.store request.source.place
      (.manifest srcDigest)).map Part.digest = collectReferencedDigests manifest := by
    rw [collectReferencedDigests_eq]
    simp only [references, found, parsed]
  rw [lookup_place_linkSignature destPlain, lookup_foldl_bring plain destPlain, arrival]
  simp only [Brings, named]

theorem namesStored_linkTag_iff (destPlain : request.dest.Plain)
    (tag : Text.startsWith request.dest.reference "sha256:" = false)
    (arrived : Arrived lib request stores srcDigest copied) :
    NamesStored lib request.dest (linkTag request srcDigest copied).target ↔
      NamedArrives lib request stores srcDigest := by
  have there : ∀ part, (linkTag request srcDigest copied).target.lookup
      (request.dest.place part) = arrival lib request stores srcDigest part :=
    fun part => (lookup_place_linkTag destPlain part).trans (arrived part)
  have link : (linkTag request srcDigest copied).target.lookup
      (.ofString (request.dest.path tagLinkPath request.dest.reference)) = some srcDigest.toUTF8 := by
    rw [linkTag, if_neg (by simp [tag]), PromoteStores.lookup_target_write, if_pos rfl]
  have text : fromUtf8Lossy srcDigest.toUTF8 = srcDigest := by simp [fromUtf8Lossy]
  have read : ∀ digest bytes,
      resolveDigest (linkTag request srcDigest copied).target request.dest = .ok (digest, bytes) ↔
        digest = Text.trim srcDigest ∧
          arrival lib request stores srcDigest (.manifest (Text.trim srcDigest)) = some bytes := by
    intro digest bytes
    have manifest := there (.manifest (Text.trim srcDigest))
    unfold resolveDigest
    rw [if_neg (by simp [tag]), link]
    simp only [text]
    simp only [Except.bind]
    rw [← manifest]
    have place : request.dest.place (.manifest (Text.trim srcDigest)) =
        .ofString (request.dest.path manifestPath (Text.trim srcDigest)) := rfl
    rw [place]
    cases (linkTag request srcDigest copied).target.lookup
        (.ofString (request.dest.path manifestPath (Text.trim srcDigest))) with
    | none => simp
    | some stored =>
      simp only [Except.ok.injEq, Prod.mk.injEq, Option.some.injEq]
      exact and_congr_left' eq_comm
  have stored : ∀ part, request.dest.place part ∈ (linkTag request srcDigest copied).target ↔
      (arrival lib request stores srcDigest part).isSome = true := by
    intro part
    rw [← there part, AList.lookup_isSome]
  unfold NamesStored NamedArrives
  simp only [read, stored]
  constructor
  · rintro ⟨_, bytes, ⟨_, manifest⟩, names⟩
    exact ⟨bytes, manifest, names⟩
  · rintro ⟨bytes, manifest, names⟩
    exact ⟨_, bytes, ⟨rfl, manifest⟩, names⟩

end Copied

section Links

variable {lib : PromoteLib} {request : PromoteRequest} {stores : PromoteStores}
  {srcDigest : String} {faults : Faults} {digests : List String}

theorem complete_of_makeCopies (plain : request.source.Plain) (destPlain : request.dest.Plain)
    (made : makeCopies lib request srcDigest digests stores = (.ok totals, after)) :
    SourceComplete stores request.source digests := by
  obtain ⟨answer, copied, run, _, _, result⟩ := copyReferenced_spec lib plain destPlain digests (0, 0) stores
  rcases result with ⟨complete, _⟩ | ⟨_, digest, rfl⟩
  · exact complete
  · simp only [makeCopies, run, andThen_error] at made
    cases (Prod.mk.inj made).1

theorem atomic_of_leaves (kept : Leaves request.link (.start stores) result.2) :
    Atomic lib request stores result := by
  intro front state back states changed
  obtain ⟨later, same, held⟩ := kept.states
  have all : later = front ++ state :: back := same.symm.trans states
  have member : state ∈ later := by
    rw [all]
    exact List.mem_append_right _ List.mem_cons_self
  exact (changed (held state member)).elim

theorem atomic_of_last (kept : Leaves request.link (.start stores) session)
    (names : last.target.lookup request.link ≠ stores.target.lookup request.link → NamesStored
      lib request.dest last.target) : Atomic lib request stores (.ok outcome, Calls.next session last) := by
  intro front state back states changed
  obtain ⟨later, same, held⟩ := kept.states
  have all : later ++ [last] = front ++ state :: back := by
    rw [← states, Calls.next, same]
    rfl
  rcases back.eq_nil_or_concat with rfl | ⟨init, final, rfl⟩
  · obtain ⟨_, equal⟩ := List.append_inj' all rfl
    obtain rfl : last = state := (List.cons.inj equal).1
    exact ⟨rfl, ⟨outcome, rfl⟩, names changed⟩
  rw [List.concat_eq_append, ← List.cons_append, ← List.append_assoc] at all
  obtain ⟨front, _⟩ := List.append_inj' all rfl
  have member : state ∈ later := by
    rw [front]
    exact List.mem_append_right _ List.mem_cons_self
  exact (changed (held state member)).elim

/-- Safe links make every run of the calls atomic. -/
theorem promote_atomic (plain : request.source.Plain) (destPlain : request.dest.Plain)
    (tag : Text.startsWith request.dest.reference "sha256:" = false) (safe : LinkSafe lib request stores)
    (id : Uuid) : Atomic lib request stores (Calls.promote lib faults id request (.start stores)) := by
  have apart : ∀ part, request.link ≠ request.dest.place part :=
    fun part => request.dest.place_ne_link destPlain part _
  have reading : Leaves request.link (.start stores)
      (Calls.resolveDigest lib faults request.source (.start stores)).2 :=
    .resolveDigest request.source _
  have reads := @Calls.resolveDigest_follows lib faults request.source (.start stores)
  unfold Calls.promote
  rcases answered : Calls.resolveDigest lib faults request.source (.start stores) with
    ⟨answer, session⟩
  rw [answered] at reading reads
  cases answer with
  | error error => exact atomic_of_leaves reading
  | ok found =>
    obtain ⟨srcDigest, bytes⟩ := found
    obtain ⟨resolved, state⟩ := Prod.mk.inj (reads.of_ok rfl)
    simp only [andThen_ok]
    cases parsed : lib.parse bytes with
    | error reason => exact atomic_of_leaves reading
    | ok manifest =>
      dsimp only
      split
      · exact atomic_of_leaves reading
      rename_i writes
      have state : stores = session.stores := state
      subst state
      have copying : Leaves request.link session (Calls.copies lib faults request srcDigest
          (collectReferencedDigests manifest) session).2 :=
        .copies plain destPlain apart fun complete =>
          (safe srcDigest bytes manifest resolved parsed writes complete).1
      have copied := @Calls.copies_follows lib faults request srcDigest
        (collectReferencedDigests manifest) session
      rcases ended : Calls.copies lib faults request srcDigest
        (collectReferencedDigests manifest) session with ⟨totals, middle⟩
      rw [ended] at copying copied
      cases totals with
      | error error => exact atomic_of_leaves (reading.trans copying)
      | ok totals =>
        have made := copied.of_ok rfl
        have complete := complete_of_makeCopies plain destPlain made
        obtain ⟨_, brought, run, arrived⟩ := makeCopies_arrived plain destPlain resolved parsed complete
        obtain ⟨_, same⟩ := Prod.mk.inj (run.symm.trans made)
        rw [same] at arrived
        have link := (safe srcDigest bytes manifest resolved parsed writes complete).2
        simp only [andThen_ok, Calls.linkTag, tag, Bool.false_eq_true, if_false, Calls.storePut, Calls.put]
        rcases @Calls.call_cases faults Unit (fun stores => (.ok (), stores.write
          (.ofString (request.dest.path tagLinkPath request.dest.reference))
          srcDigest.toUTF8)) middle with ⟨text, _, result⟩ | result
        · rw [result]
          exact atomic_of_leaves ((reading.trans copying).trans (.next rfl))
        rw [result]
        refine atomic_of_last (reading.trans copying) fun changed => ?_
        have linked : middle.stores.write (.ofString (request.dest.path tagLinkPath request.dest.reference))
              srcDigest.toUTF8 = linkTag request srcDigest middle.stores := by
          rw [linkTag, if_neg (by simp [tag])]
        dsimp only at changed ⊢
        rw [linked, namesStored_linkTag_iff destPlain tag arrived]
        rcases link with unchanged | arrives
        · rw [PromoteRequest.link, PromoteStores.lookup_target_write, if_pos rfl] at changed
          exact (changed unchanged.symm).elim
        · exact arrives

theorem recorded_call {Answer : Type}
    (run : PromoteStores → Except CallError Answer × PromoteStores) (session : Session) :
    (Calls.call faults run session).2.stores ∈ (Calls.call faults run session).2.states := by
  rcases @Calls.call_cases faults Answer run session with ⟨text, _, result⟩ | result
  all_goals
    rw [result]
    exact List.mem_append_right _ List.mem_cons_self

theorem recorded_storeGet (side : Side) (text : String) (session : Session) :
    (Calls.storeGet lib faults side text session).2.stores ∈
      (Calls.storeGet lib faults side text session).2.states := by
  unfold Calls.storeGet
  have read : (Calls.get faults side text session).2.stores ∈
      (Calls.get faults side text session).2.states := recorded_call _ session
  rcases called : Calls.get faults side text session with ⟨answer, later⟩
  rw [called] at read
  cases answer with
  | error error => exact read
  | ok bytes => exact recorded_call _ later

theorem recorded_resolveDigest (answered : (Calls.resolveDigest lib faults image session).1 = .ok found) :
    (Calls.resolveDigest lib faults image session).2.stores ∈
      (Calls.resolveDigest lib faults image session).2.states := by
  unfold Calls.resolveDigest at answered ⊢
  dsimp only at answered ⊢
  generalize (if Text.startsWith image.reference "sha256:" = true then
    ((.ok image.reference : Except RegistryError String), session) else _) = first at answered ⊢
  obtain ⟨answer, later⟩ := first
  cases answer with
  | error error => cases answered
  | ok digest => exact recorded_storeGet _ _ later

theorem recorded_copies (plain : request.source.Plain) (destPlain : request.dest.Plain)
    (given : session.stores ∈ session.states) :
    (Calls.copies lib faults request srcDigest digests session).2.stores ∈
      (Calls.copies lib faults request srcDigest digests session).2.states := by
  -- No call writes the object of the empty key, so that it serves as the one that is left alone.
  have root : Leaves ⟨[], fun _ member => by cases member⟩ session
      (Calls.copies lib faults request srcDigest digests session).2 := by
    refine .copies plain destPlain ?_ ?_
    · intro part same
      have parts := congrArg StorePath.parts same
      rw [request.dest.parts_place destPlain] at parts
      cases parts
    · intro _ _ _ _ same
      have parts := congrArg StorePath.parts same
      rw [ImageRef.path, parts_tagLinkPath destPlain] at parts
      cases parts
  exact root.recorded given

/-- A run without failures that is atomic has safe links. -/
theorem linkSafe_of_atomic (plain : request.source.Plain) (destPlain : request.dest.Plain)
    (tag : Text.startsWith request.dest.reference "sha256:" = false) {id : Uuid}
    (atomic : Atomic lib request stores (Calls.promote lib (fun _ => none) id request (.start stores))) :
    LinkSafe lib request stores := by
  intro srcDigest bytes manifest resolved parsed writes complete
  obtain ⟨reads, kept⟩ :=
    (@Calls.resolveDigest_follows lib (fun _ => none) request.source (.start stores)).of_clean
  have read : (Calls.resolveDigest lib (fun _ => none) request.source (.start stores)).1 =
      .ok (srcDigest, bytes) := reads.trans resolved
  have noted := recorded_resolveDigest read
  obtain ⟨totals, brought, run, arrived⟩ := makeCopies_arrived plain destPlain resolved parsed complete
  unfold Calls.promote at atomic
  rcases answered : Calls.resolveDigest lib (fun _ => none) request.source (.start stores) with
    ⟨answer, session⟩
  rw [answered] at kept read noted atomic
  obtain rfl : answer = .ok (srcDigest, bytes) := read
  have state : session.stores = stores := kept
  subst state
  obtain ⟨made, reached⟩ := (@Calls.copies_follows lib (fun _ => none) request srcDigest
    (collectReferencedDigests manifest) session).of_clean
  have recorded : (Calls.copies lib (fun _ => none) request srcDigest
      (collectReferencedDigests manifest) session).2.stores ∈ _ :=
    recorded_copies plain destPlain noted
  rcases ended : Calls.copies lib (fun _ => none) request srcDigest
    (collectReferencedDigests manifest) session with ⟨answer, middle⟩
  rw [ended, run] at made reached
  rw [ended] at recorded
  obtain rfl : answer = .ok totals := made
  have copied : middle.stores = linkSignature request srcDigest
    (request.signature lib session.stores.store srcDigest) brought := reached
  rw [← copied] at arrived
  have linked : middle.stores.write request.link srcDigest.toUTF8 =
      linkTag request srcDigest middle.stores := by
    rw [linkTag, if_neg (by simp [tag])]
    rfl
  simp only [andThen_ok, parsed, writes, if_false, ended, Calls.linkTag, tag, Bool.false_eq_true,
    Calls.storePut, Calls.put, Calls.call, Calls.orRefuse] at atomic
  have states : (Calls.next middle (middle.stores.write request.link srcDigest.toUTF8)).states =
      middle.states ++ [middle.stores.write request.link srcDigest.toUTF8] := rfl
  have written : (middle.stores.write request.link srcDigest.toUTF8).target.lookup request.link =
      some srcDigest.toUTF8 := by
    rw [PromoteStores.lookup_target_write, if_pos rfl]
  constructor
  · intro sigDigest referenced signature same
    obtain ⟨front, back, split⟩ := List.append_of_mem recorded
    have content : middle.stores.target.lookup request.link = some sigDigest.toUTF8 := by
      rw [copied, signature]
      simp only [linkSignature, PromoteStores.lookup_target_write, same, if_true]
    by_contra different
    have last := atomic front middle.stores (back ++ [middle.stores.write request.link srcDigest.toUTF8])
      (by rw [← List.cons_append, ← List.append_assoc, ← split]; exact states)
      (by rw [content]; exact fun equal => different equal.symm)
    simp at last
  · by_cases unchanged : session.stores.target.lookup request.link = some srcDigest.toUTF8
    · exact .inl unchanged
    refine .inr ((namesStored_linkTag_iff destPlain tag arrived).mp ?_)
    rw [← linked]
    exact (atomic middle.states _ [] states (by rw [written]; exact fun equal => unchanged equal.symm)).2.2

end Links

/-- A promotion to a tag keeps the tag's link at every step and on every error, and changes it last,
when what it names is stored, whichever calls fail, exactly if its links are safe. -/
theorem promote_atomic_iff (lib : PromoteLib) (id : Uuid) (request : PromoteRequest)
    (stores : PromoteStores) (plain : request.source.Plain) (destPlain : request.dest.Plain)
    (tag : Text.startsWith request.dest.reference "sha256:" = false) :
    (∀ faults, Atomic lib request stores
      (Calls.promote lib faults id request (.start stores))) ↔ LinkSafe lib request stores :=
  ⟨fun atomic => linkSafe_of_atomic plain destPlain tag (atomic fun _ => none),
    fun safe _ => promote_atomic plain destPlain tag safe id⟩

/-- The promotion of an image to a tag is atomic, also when its fourth call fails. -/
theorem image_promoted_atomically : Atomic sampleLib (sampleRequest "sha256:m") ⟨imageStore, none⟩
      (Calls.promote sampleLib (fun number => if number = 3 then some "timeout" else none) Uuid.nil
        (sampleRequest "sha256:m") (.start ⟨imageStore, none⟩)) := by
  have facts : resolveDigest imageStore (sampleRequest "sha256:m").source = .ok ("sha256:m", "image".toUTF8) ∧
      (sampleRequest "sha256:m").signature sampleLib imageStore "sha256:m" = none ∧
      ((sampleLib.parse "image".toUTF8).toOption.map collectReferencedDigests) =
        some ["sha256:l"] := by decide +kernel
  obtain ⟨resolved, unsigned, names⟩ := facts
  refine (promote_atomic_iff sampleLib Uuid.nil (sampleRequest "sha256:m") ⟨imageStore, none⟩
    (by decide) (by decide) (by decide)).mpr ?_ _
  intro srcDigest bytes document found _ _ _
  cases resolved.symm.trans found
  constructor
  · intro sigDigest referenced signed
    cases unsigned.symm.trans signed
  · refine .inr ⟨"image".toUTF8, by decide +kernel, ?_⟩
    intro document parsed name listed
    rw [parsed] at names
    rw [Option.some.inj names] at listed
    rw [List.mem_singleton.mp listed]
    exact .inl (by decide +kernel)

/-- The image with a signature. -/
def signedStore : ObjectStore :=
  (imageStore.insert (.ofString "acme/shop/web/tags/sha256-m.sig") "sha256:s".toUTF8).insert
    (.ofString "acme/shop/web/manifests/sha256:s") "signature".toUTF8

/-- A promotion to a tag that differs from the signature's by a slash. -/
def slashRequest : PromoteRequest :=
  { sampleRequest "sha256:m" with dest := ⟨"acme", "live", "web", "sha256-m.sig/"⟩ }

/-- Its link gets the digest of the signature, and keeps that when the last call fails. -/
theorem slash_tag_keeps_signature : ImageRef.parse "acme/live/web:sha256-m.sig/" = .ok slashRequest.dest ∧
      (⟨signedStore, none⟩ : PromoteStores).target.lookup slashRequest.link = none ∧
      (Calls.promote sampleLib (fun number => if number = 19 then some "timeout" else none) Uuid.nil
        slashRequest (.start ⟨signedStore, none⟩)).1 = .error (.storage "timeout") ∧
      (Calls.promote sampleLib (fun number => if number = 19 then some "timeout" else none) Uuid.nil
        slashRequest (.start ⟨signedStore, none⟩)).2.stores.target.lookup slashRequest.link =
          some "sha256:s".toUTF8 := by
  decide +kernel

end SpectonCr.Registry
