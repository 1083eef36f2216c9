import SpectonCr.Registry.Interleaved
import SpectonCr.Registry.ReadBack

/-! Which interleavings leave every tag on a stored manifest. -/

namespace SpectonCr.Registry

open Storage Interleaving

/-- A request of the repository, whatever reference it names. -/
def ManifestRef.OnRepo (repo params : ManifestRef) : Prop :=
  params = { repo with reference := params.reference }

instance (repo params : ManifestRef) : Decidable (repo.OnRepo params) := inferInstanceAs (Decidable (_ = _))

def ManifestRef.tags (repo : ManifestRef) : StorePath :=
  .ofString (tagsPrefix repo.tenant repo.project repo.name)

/-- An object the listing of the tags returns. -/
def ManifestRef.BelowTags (repo : ManifestRef) (link : StorePath) : Prop :=
  repo.tags.parts.isPrefixOf link.parts = true ∧ repo.tags.parts.length < link.parts.length

instance (repo : ManifestRef) (link : StorePath) : Decidable (repo.BelowTags link) :=
  inferInstanceAs (Decidable (_ ∧ _))

/-- A link that the listing returns under the tag it is the link of. A tag with characters the
store encodes is listed under another name. -/
def ManifestRef.Shown (repo : ManifestRef) (link : StorePath) : Prop :=
  repo.BelowTags link ∧ (listedTag repo link).map repo.tagLink = some link

instance (repo : ManifestRef) (link : StorePath) : Decidable (repo.Shown link) :=
  inferInstanceAs (Decidable (_ ∧ _))

/-- A reference a push may name: a digest, or a tag the listing shows. -/
def ManifestRef.Nameable (repo : ManifestRef) (reference : String) : Prop :=
  Text.startsWith reference "sha256:" = true ∨ repo.Shown (repo.tagLink reference)

instance (repo : ManifestRef) (reference : String) : Decidable (repo.Nameable reference) :=
  inferInstanceAs (Decidable (_ ∨ _))

/-- A digest that is one path segment and that reading a link does not trim. -/
def Tidy (digest : String) : Prop := Plain digest ∧ Text.trim digest = digest

/-- Every tag names a digest whose manifest is stored. -/
def NoDangling (repo : ManifestRef) (store : ObjectStore) : Prop :=
  ∀ tag digest, readTagLink store repo tag = some digest → repo.object digest ∈ store

/-- A repository the handlers can keep free of dangling tags. -/
def WellTagged (repo : ManifestRef) (store : ObjectStore) : Prop :=
  ∀ tag digest, readTagLink store repo tag = some digest →
    repo.Shown (repo.tagLink tag) ∧ Plain digest ∧ repo.object digest ∈ store

/-- What is asked of a request: it is on the repository, its tag is one the listing shows, and
its digest is one path segment. -/
def StoreRequest.Proper (env : StoreEnv) (repo : ManifestRef) : StoreRequest → Prop
  | .put request _ => repo.OnRepo request.params ∧ repo.Nameable request.params.reference
  | .delete request => repo.OnRepo request.params ∧
      ∀ digest, spelledDigest request.params.reference = some digest → Plain digest
  | .replicateManifest headers _ _ => ∀ params digest, replicatedManifest headers = .ok (params, digest) →
        repo.OnRepo params ∧ Tidy digest ∧ repo.Nameable params.reference
  | .replicateDelete body => ∀ event, env.parseEvent body = .ok event →
      repo.OnRepo event.params ∧ (Text.startsWith event.reference "sha256:" = true → Plain event.digest)

/-- A delete of the digest that still comes to the link. -/
def Flight.Covers (digest : String) (link : StorePath) : Flight → Prop
  | .listing deletion _ => deletion.digest = digest
  | .reading scan => scan.deletion.digest = digest ∧ (link = scan.link ∨ link ∈ scan.rest)
  | .erasing scan => link = scan.link ∨ (scan.deletion.digest = digest ∧ link ∈ scan.rest)
  | _ => False

abbrev Handlers := Pool ObjectStore Flight

/-- The manifest is stored, or a delete under way still comes to the link. -/
def Backed (repo : ManifestRef) (pool : Handlers) (digest : String) (link : StorePath) : Prop :=
  repo.object digest ∈ pool.shared ∨
    ∃ number flight, pool.flights.lookup number = some flight ∧ flight.Covers digest link

/-- The condition on a move: requests are proper, and a link is written only while its manifest
is stored or a delete of the digest still comes to the link. -/
def Careful (env : StoreEnv) (repo : ManifestRef) (pool : Handlers) : Move StoreRequest → Prop
  | .start _ request => request.Proper env repo
  | .advance number => ∀ params digest answer,
      pool.flights.lookup number = some (.linking params digest answer) →
        Backed repo pool digest (repo.tagLink params.reference)

section Repository

variable {repo params : ManifestRef} (onRepo : repo.OnRepo params)
include onRepo

theorem ManifestRef.OnRepo.object (digest : String) : params.object digest = repo.object digest := by
  rw [onRepo]
  rfl

theorem ManifestRef.OnRepo.tagLink (tag : String) : params.tagLink tag = repo.tagLink tag := by
  rw [onRepo]
  rfl

theorem ManifestRef.OnRepo.readTagLink (store : ObjectStore) (tag : String) :
    Registry.readTagLink store params tag = Registry.readTagLink store repo tag := by
  rw [onRepo]
  rfl

theorem ManifestRef.OnRepo.listedTag (link : StorePath) :
    Registry.listedTag params link = Registry.listedTag repo link := by
  rw [onRepo]
  rfl

theorem ManifestRef.OnRepo.tags :
    StorePath.ofString (tagsPrefix params.tenant params.project params.name) = repo.tags := by
  rw [onRepo]
  rfl

end Repository

variable {env : StoreEnv} {repo : ManifestRef}

theorem mem_list_tags : link ∈ list store repo.tags ↔ link ∈ store ∧ repo.BelowTags link := by
  simp only [list, Table.mem_keysWhere, ManifestRef.BelowTags, Bool.and_eq_true, decide_eq_true_eq]

theorem ManifestRef.BelowTags.ne_object (below : repo.BelowTags link) (digest : String) :
    repo.object digest ≠ link := by
  rintro rfl
  obtain ⟨rest, parts⟩ := List.isPrefixOf_iff_prefix.mp below.1
  simp only [ManifestRef.tags, ManifestRef.object, StorePath.ofString, segments_tagsPrefix,
    segments_manifestPath, List.append_assoc] at parts
  have heads := List.append_cancel_left parts
  simp at heads

theorem ManifestRef.object_inj (plainFirst : Plain first) (plainSecond : Plain second)
    (same : repo.object first = repo.object second) : first = second := by
  rw [ManifestRef.object, ManifestRef.object, ofString_eq_iff, segments_manifestPath,
    segments_manifestPath, plainFirst.segments, plainSecond.segments] at same
  have heads := List.append_cancel_left same
  simpa using heads

theorem readTagLink_congr (same : repo.tagLink first = repo.tagLink second) :
    readTagLink store repo first = readTagLink store repo second := by
  rw [readTagLink, readTagLink, same]

theorem readTagLink_insert_object (store : ObjectStore) (digest tag : String) (body : Bytes) :
    readTagLink (store.insert (repo.object digest) body) repo tag = readTagLink store repo tag := by
  rw [readTagLink, AList.lookup_insert_ne (repo.object_ne_tagLink digest tag).symm]
  rfl

theorem readTagLink_of_erase (read : readTagLink (store.erase path) repo tag = some digest) :
    repo.tagLink tag ≠ path ∧ readTagLink store repo tag = some digest := by
  by_cases same : repo.tagLink tag = path
  · rw [readTagLink, same, AList.lookup_erase] at read
    cases read
  · rw [readTagLink, AList.lookup_erase_ne same] at read
    exact ⟨same, read⟩

theorem readTagLink_insert (trimmed : Text.trim written = written)
    (read : readTagLink (store.insert (repo.tagLink reference) written.toUTF8) repo tag = some digest) :
    (repo.tagLink tag = repo.tagLink reference ∧ digest = written) ∨
      (repo.tagLink tag ≠ repo.tagLink reference ∧ readTagLink store repo tag = some digest) := by
  by_cases same : repo.tagLink tag = repo.tagLink reference
  · refine .inl ⟨same, ?_⟩
    rw [readTagLink, same, AList.lookup_insert] at read
    have text : fromUtf8Lossy written.toUTF8 = written := by simp [fromUtf8Lossy]
    rw [Option.map_some, text, trimmed] at read
    exact (Option.some.inj read).symm
  · rw [readTagLink, AList.lookup_insert_ne same] at read
    exact .inr ⟨same, read⟩

/-- What every flight on the repository has in hand. -/
def Flight.Ready (repo : ManifestRef) : Flight → Prop
  | .storing params digest _ _ => repo.OnRepo params ∧ Tidy digest ∧ repo.Nameable params.reference
  | .linking params digest _ =>
    repo.OnRepo params ∧ Tidy digest ∧ repo.Shown (repo.tagLink params.reference)
  | .resolving params _ _ => repo.OnRepo params
  | .unlinking params _ _ => repo.OnRepo params
  | .removing deletion => repo.OnRepo deletion.params ∧ Plain deletion.digest
  | .listing deletion _ => repo.OnRepo deletion.params
  | .reading scan => repo.OnRepo scan.deletion.params ∧
      listedTag repo scan.link = some scan.tag ∧ ∀ link ∈ scan.link :: scan.rest, repo.BelowTags link
  | .erasing scan => repo.OnRepo scan.deletion.params ∧
      listedTag repo scan.link = some scan.tag ∧ ∀ link ∈ scan.link :: scan.rest, repo.BelowTags link

/-- The rest of a flight, when there is one, comes to the link. -/
def Carries (digest : String) (link : StorePath) (result : Flight ⊕ StoreAnswer) : Prop :=
  ∃ next, result = .inl next ∧ next.Covers digest link

theorem ManifestRef.Shown.listed (shown : repo.Shown link) :
    ∃ tag, listedTag repo link = some tag ∧ repo.tagLink tag = link :=
  Option.map_eq_some_iff.mp shown.2

theorem launch_ready (proper : request.Proper env repo)
    (launched : (handlers env).launch request = .inl flight) : flight.Ready repo := by
  cases request with
  | put request body =>
    simp only [handlers, launchPut] at launched
    split at launched
    · cases launched
    split at launched
    · cases launched
    · cases launched
      exact ⟨proper.1, ⟨env.sha.digest_plain body, env.sha.trim_digest body⟩, proper.2⟩
  | delete request =>
    simp only [handlers, launchDelete] at launched
    split at launched
    · cases launched
    split at launched
    · rename_i digest spelled
      cases launched
      exact ⟨proper.1, proper.2 digest spelled⟩
    · cases launched
      exact proper.1
  | replicateManifest headers body audit =>
    simp only [handlers, launchReplicateManifest] at launched
    split at launched
    · cases launched
    · rename_i params digest announced
      cases launched
      exact proper params digest announced
  | replicateDelete body =>
    simp only [handlers, launchReplicateDelete] at launched
    split at launched
    · cases launched
    rename_i event parsed
    obtain ⟨onRepo, plain⟩ := proper event parsed
    split at launched
    · rename_i byDigest
      cases launched
      exact ⟨onRepo, plain byDigest⟩
    · cases launched
      exact onRepo

section Scanning

variable {deletion : Deletion} (onRepo : repo.OnRepo deletion.params) (existed : Bool)
  (removed : List String)
include onRepo

theorem scanLinks_ready (below : ∀ link ∈ links, repo.BelowTags link)
    (going : scanLinks deletion existed removed links = .inl next) : next.Ready repo := by
  induction links with
  | nil => cases going
  | cons link rest ih =>
    rw [scanLinks, onRepo.listedTag] at going
    cases listed : listedTag repo link with
    | none =>
      rw [listed] at going
      exact ih (fun other member => below other (List.mem_cons_of_mem link member)) going
    | some tag =>
      rw [listed] at going
      cases going
      exact ⟨onRepo, listed, below⟩

theorem scanLinks_carries (shown : repo.Shown link) (ahead : link ∈ links) :
    Carries deletion.digest link (scanLinks deletion existed removed links) := by
  induction links with
  | nil => cases ahead
  | cons head rest ih =>
    rw [scanLinks, onRepo.listedTag]
    cases listed : listedTag repo head with
    | none =>
      rcases List.mem_cons.mp ahead with same | later
      · obtain ⟨tag, found, _⟩ := shown.listed
        rw [same, listed] at found
        cases found
      · exact ih later
    | some tag => exact ⟨_, rfl, rfl, List.mem_cons.mp ahead⟩

end Scanning

open Flight

/-- Erasing an absent link changes nothing, so both answers of the store go on alike. -/
theorem operate_erasing (scan : Scan) (store : ObjectStore) : ∃ removed, (erasing scan).operate store =
      (store.erase scan.link, scanLinks scan.deletion scan.existed removed scan.rest) := by
  by_cases present : scan.link ∈ store
  · exact ⟨_, if_pos present⟩
  have same : store.erase scan.link = store := AList.ext (List.kerase_of_notMem_keys present)
  refine ⟨scan.removed, ?_⟩
  rw [same]
  exact if_neg present

open ManifestRef.OnRepo

theorem operate_ready {flight : Flight} {store : ObjectStore} {next : Flight} (ready : flight.Ready repo)
    (going : (flight.operate store).2 = .inl next) : next.Ready repo := by
  cases flight with
  | storing params digest body answer =>
    simp only [operate] at going
    obtain ⟨onRepo, tidy, named⟩ := ready
    split at going
    · cases going
    · rename_i tagged
      cases going
      exact ⟨onRepo, tidy, named.resolve_left tagged⟩
  | linking params digest answer => cases going
  | resolving params gone answer =>
    simp only [operate] at going
    split at going
    · cases going
    · cases going
      exact ready
  | unlinking params gone answer => cases going
  | removing deletion =>
    cases going
    exact ready.1
  | listing deletion existed =>
    simp only [operate, tags ready] at going
    exact scanLinks_ready ready existed [] (fun link member => (mem_list_tags.mp member).2) going
  | reading scan =>
    simp only [operate] at going
    obtain ⟨onRepo, listed, below⟩ := ready
    split at going
    · cases going
      exact ⟨onRepo, listed, below⟩
    · exact scanLinks_ready onRepo _ _ (fun link member => below link (List.mem_cons_of_mem _ member)) going
  | erasing scan =>
    obtain ⟨onRepo, _, below⟩ := ready
    obtain ⟨removed, operated⟩ := operate_erasing scan store
    rw [operated] at going
    exact scanLinks_ready onRepo _ _ (fun link member => below link (List.mem_cons_of_mem _ member)) going

/-- What an operation leaves of a link it did not write: the link was there before, and what
backed it still does. -/
structure Retained (repo : ManifestRef) (flight : Flight) (store : ObjectStore)
    (tag digest : String) : Prop where
  read : readTagLink store repo tag = some digest
  stored : Plain digest → repo.Shown (repo.tagLink tag) → repo.object digest ∈ store →
    repo.object digest ∈ (flight.operate store).1 ∨ Carries digest (repo.tagLink tag) (flight.operate store).2
  covered : repo.Shown (repo.tagLink tag) → flight.Covers digest (repo.tagLink tag) →
    Carries digest (repo.tagLink tag) (flight.operate store).2

theorem Retained.of_kept (read : readTagLink store repo tag = some digest)
    (uninvolved : ¬ flight.Covers digest (repo.tagLink tag))
    (kept : repo.object digest ∈ store → repo.object digest ∈ (flight.operate store).1) :
    Retained repo flight store tag digest where
  read := read
  stored _ _ present := .inl (kept present)
  covered _ covers := absurd covers uninvolved

section Operations

variable {store : ObjectStore} {tag digest : String}

/-- A delete that removes the manifest of a link goes on to list the tags. -/
theorem removing_retains (ready : (removing deletion).Ready repo)
    (read : readTagLink ((removing deletion).operate store).1 repo tag = some digest) :
    Retained repo (.removing deletion) store tag digest := by
  obtain ⟨onRepo, plain⟩ := ready
  simp only [operate, onRepo.object] at read
  obtain ⟨_, before⟩ := readTagLink_of_erase read
  refine ⟨before, ?_, fun _ covers => covers.elim⟩
  intro plainDigest _ present
  by_cases same : repo.object digest = repo.object deletion.digest
  · have named := ManifestRef.object_inj plainDigest plain same
    exact .inr ⟨_, rfl, named.symm⟩
  · refine .inl ?_
    simp only [operate, onRepo.object]
    exact AList.mem_erase.mpr ⟨same, present⟩

theorem listing_retains (ready : (listing deletion existed).Ready repo)
    (read : readTagLink store repo tag = some digest) :
    Retained repo (.listing deletion existed) store tag digest := by
  refine ⟨read, fun _ _ present => .inl present, ?_⟩
  intro shown named
  have listed := mem_list_tags.mpr ⟨mem_of_readTagLink read, shown.1⟩
  have ahead := scanLinks_carries ready existed [] shown listed
  rw [named] at ahead
  simp only [operate, tags ready]
  exact ahead

/-- A scan passes a link only when it names another digest. -/
theorem reading_retains (ready : (reading scan).Ready repo) (read : readTagLink store repo tag = some digest) :
    Retained repo (.reading scan) store tag digest := by
  obtain ⟨onRepo, listed, _⟩ := ready
  refine ⟨read, fun _ _ present => .inl present, ?_⟩
  intro shown covers
  obtain ⟨named, ahead⟩ := covers
  subst named
  simp only [operate, onRepo.readTagLink]
  split
  · refine ⟨_, rfl, ?_⟩
    rcases ahead with here | later
    · exact .inl here
    · exact .inr ⟨rfl, later⟩
  · rename_i other
    rcases ahead with here | later
    · obtain ⟨shownTag, found, link⟩ := shown.listed
      rw [here, listed] at found
      cases found
      exact absurd ((readTagLink_congr link).trans read) other
    · exact scanLinks_carries onRepo _ _ shown later

/-- A scan erases one link and goes on to the ones ahead of it. -/
theorem erasing_retains (ready : (erasing scan).Ready repo)
    (read : readTagLink ((erasing scan).operate store).1 repo tag = some digest) :
    Retained repo (.erasing scan) store tag digest := by
  obtain ⟨onRepo, _, below⟩ := ready
  obtain ⟨removed, operated⟩ := operate_erasing scan store
  rw [operated] at read
  obtain ⟨still, before⟩ := readTagLink_of_erase read
  refine ⟨before, ?_, ?_⟩
  · intro _ _ present
    have apart := (below scan.link List.mem_cons_self).ne_object digest
    rw [operated]
    exact .inl (AList.mem_erase.mpr ⟨apart, present⟩)
  · intro shown covers
    obtain ⟨named, later⟩ := covers.resolve_left still
    have ahead := scanLinks_carries onRepo scan.existed removed shown later
    rw [named] at ahead
    rw [operated]
    exact ahead

end Operations

/-- Every link after an operation is one it retained, or the one a push just wrote. -/
theorem operate_link (ready : flight.Ready repo)
    (read : readTagLink (flight.operate store).1 repo tag = some digest) :
    Retained repo flight store tag digest ∨ ∃ params answer, flight = .linking params digest answer ∧
        repo.tagLink tag = repo.tagLink params.reference := by
  cases flight with
  | storing params written body answer =>
    simp only [operate, object ready.1, readTagLink_insert_object] at read
    exact .inl (.of_kept read id fun present => (AList.mem_insert _).mpr (.inr present))
  | linking params written answer =>
    obtain ⟨onRepo, tidy, _⟩ := ready
    simp only [operate, onRepo.tagLink] at read
    rcases readTagLink_insert tidy.2 read with ⟨same, rfl⟩ | ⟨_, before⟩
    · exact .inr ⟨params, answer, rfl, same⟩
    · exact .inl (.of_kept before id fun present => (AList.mem_insert _).mpr (.inr present))
  | resolving params gone answer => exact .inl (.of_kept read id id)
  | unlinking params gone answer =>
    simp only [operate, tagLink ready] at read
    obtain ⟨_, before⟩ := readTagLink_of_erase read
    have apart := params.object_ne_tagLink digest params.reference
    rw [object ready] at apart
    exact .inl (.of_kept before id fun present => AList.mem_erase.mpr ⟨apart, present⟩)
  | removing deletion => exact .inl (removing_retains ready read)
  | listing deletion existed => exact .inl (listing_retains ready read)
  | reading scan => exact .inl (reading_retains ready read)
  | erasing scan => exact .inl (erasing_retains ready read)

/-- The invariant of a careful run. -/
structure Kept (repo : ManifestRef) (pool : Handlers) : Prop where
  links : ∀ tag digest, readTagLink pool.shared repo tag = some digest →
    repo.Shown (repo.tagLink tag) ∧ Plain digest ∧ Backed repo pool digest (repo.tagLink tag)
  flights : ∀ number flight, pool.flights.lookup number = some flight → flight.Ready repo

theorem Kept.start (tagged : WellTagged repo store) : Kept repo ⟨store, ∅⟩ := by
  constructor
  · intro tag digest read
    obtain ⟨shown, plain, stored⟩ := tagged tag digest read
    exact ⟨shown, plain, .inl stored⟩
  · intro number flight found
    cases found

theorem Kept.launched (kept : Kept repo pool) (fresh : number ∉ pool.flights)
    (proper : request.Proper env repo) :
    Kept repo { pool with
      flights := settle pool.flights number ((handlers env).launch request) } := by
  constructor
  · intro tag digest read
    obtain ⟨shown, plain, backed⟩ := kept.links tag digest read
    refine ⟨shown, plain, ?_⟩
    rcases backed with stored | ⟨other, flight, found, covers⟩
    · exact .inl stored
    have apart : other ≠ number := by
      rintro rfl
      exact fresh (Table.mem_of_lookup found)
    exact .inr ⟨other, flight, (lookup_settle_ne apart _).trans found, covers⟩
  · intro other flight found
    rcases lookup_settle found with ⟨_, launched⟩ | ⟨_, before⟩
    · exact launch_ready proper launched
    · exact kept.flights other flight before

theorem Kept.operated {pool : Handlers} (kept : Kept repo pool) {number : Nat} {flight : Flight}
    (flying : pool.flights.lookup number = some flight) (careful : Careful env repo pool (.advance number)) :
    Kept repo ⟨(flight.operate pool.shared).1,
      settle pool.flights number (flight.operate pool.shared).2⟩ := by
  have ready := kept.flights number flight flying
  have carried : ∀ {digest link}, Carries digest link (flight.operate pool.shared).2 →
      Backed repo ⟨(flight.operate pool.shared).1,
        settle pool.flights number (flight.operate pool.shared).2⟩ digest link := by
    rintro digest link ⟨next, going, covers⟩
    refine .inr ⟨number, next, ?_, covers⟩
    rw [going]
    exact AList.lookup_insert pool.flights
  have elsewhere : ∀ {other : Nat} {held : Flight} {digest : String} {link : StorePath},
      other ≠ number → pool.flights.lookup other = some held → held.Covers digest link →
      Backed repo ⟨(flight.operate pool.shared).1,
        settle pool.flights number (flight.operate pool.shared).2⟩ digest link := by
    intro other held digest link apart found covers
    exact .inr ⟨other, held, (lookup_settle_ne apart _).trans found, covers⟩
  constructor
  · intro tag digest read
    rcases operate_link ready read with retained | ⟨params, answer, rfl, same⟩
    · obtain ⟨shown, plain, backed⟩ := kept.links tag digest retained.read
      refine ⟨shown, plain, ?_⟩
      rcases backed with stored | ⟨other, held, found, covers⟩
      · rcases retained.stored plain shown stored with still | carries
        · exact .inl still
        · exact carried carries
      by_cases self : other = number
      · subst self
        cases flying.symm.trans found
        exact carried (retained.covered shown covers)
      · exact elsewhere self found covers
    · obtain ⟨_, tidy, shown⟩ := ready
      rw [same]
      refine ⟨shown, tidy.1, ?_⟩
      rcases careful params digest answer flying with stored | ⟨other, held, found, covers⟩
      · exact .inl ((AList.mem_insert _).mpr (.inr stored))
      refine elsewhere ?_ found covers
      rintro rfl
      cases flying.symm.trans found
      exact covers
  · intro other held found
    rcases lookup_settle found with ⟨_, going⟩ | ⟨_, before⟩
    · exact operate_ready ready going
    · exact kept.flights other held before

theorem Kept.step (kept : Kept repo pool) (careful : Careful env repo pool move) :
    Kept repo ((handlers env).step pool move) := by
  rcases (handlers env).step_cases pool move with
    idle | ⟨number, request, rfl, fresh, started⟩ | ⟨number, flight, rfl, flying, advanced⟩
  · rw [idle]
    exact kept
  · rw [started]
    exact kept.launched fresh careful
  · rw [advanced]
    exact kept.operated flying careful

/-- When no request is in flight after a run whose moves are all careful, every tag names a
stored manifest. -/
theorem careful_runs_leave_no_dangling_tags (env : StoreEnv) (repo : ManifestRef)
    (store : ObjectStore) (moves : List (Move StoreRequest)) (tagged : WellTagged repo store)
    (careful : Run.Along (handlers env).step (Careful env repo) ⟨store, ∅⟩ moves)
    (quiet : (Run.after (handlers env).step ⟨store, ∅⟩ moves).flights = ∅) :
    NoDangling repo (Run.after (handlers env).step ⟨store, ∅⟩ moves).shared := by
  have kept := Run.after_invariant (Kept repo) (fun _ _ held guarded => held.step guarded)
    (Kept.start tagged) careful
  intro tag digest read
  obtain ⟨_, _, backed⟩ := kept.links tag digest read
  rcases backed with stored | ⟨number, flight, found, _⟩
  · exact stored
  · rw [quiet] at found
    cases found

theorem launchPut_cases (env : Env) (request : ManifestRequest) (body : Bytes) :
    (∃ refusal, launchPut env request body = .inr refusal) ∨ ∃ answer, launchPut env request body =
        .inl (.storing request.params (env.sha.digest body) body answer) := by
  unfold launchPut
  split
  · exact .inl ⟨_, rfl⟩
  · split
    · exact .inl ⟨_, rfl⟩
    · exact .inr ⟨_, rfl⟩

/-- A push that runs alone is careful: the manifest it stored is there when it writes the link. -/
theorem lone_push_careful (store : ObjectStore) (number : Nat)
    (proper : (StoreRequest.put request body).Proper env repo) :
    Run.Along (handlers env).step (Careful env repo) ⟨store, ∅⟩
      [.start number (.put request body), .advance number, .advance number] := by
  refine ⟨proper, ?_⟩
  rcases launchPut_cases env.toEnv request body with ⟨refusal, refused⟩ | ⟨answer, launched⟩
  · have started : (handlers env).step ⟨store, ∅⟩ (.start number (.put request body)) =
        ⟨store, (∅ : Table Nat Flight).erase number⟩ := by
      simp [Process.step, handlers, refused, settle]
    have idle : (handlers env).step ⟨store, (∅ : Table Nat Flight).erase number⟩
        (.advance number) = ⟨store, (∅ : Table Nat Flight).erase number⟩ := by
      simp [Process.step]
    rw [started, Run.Along, idle]
    refine ⟨?_, ?_, trivial⟩ <;> intro params digest answer found <;> simp at found
  · have started : (handlers env).step ⟨store, ∅⟩ (.start number (.put request body)) =
        ⟨store, (∅ : Table Nat Flight).insert number
          (.storing request.params (env.sha.digest body) body answer)⟩ := by
      simp [Process.step, handlers, launched, settle]
    rw [started]
    refine ⟨?_, ?_, trivial⟩
    · intro params digest answer found
      rw [AList.lookup_insert] at found
      cases found
    · intro params digest given found
      simp only [Process.step, AList.lookup_insert, handlers, operate] at found ⊢
      rcases lookup_settle found with ⟨_, going⟩ | ⟨apart, _⟩
      · split at going
        · cases going
        · obtain ⟨rfl, rfl, rfl⟩ := linking.inj (Sum.inl.inj going)
          rw [proper.1.object]
          exact .inl ((AList.mem_insert _).mpr (.inl rfl))
      · exact absurd rfl apart

/-- The environment of the empty object, with a store's usual text for a missing one. -/
def emptyStoreEnv : StoreEnv where
  toEnv := emptyObjectEnv
  parseEvent _ := .error "expected value"
  notFound link := "Object at location " ++ link.asRef ++ " not found"

def deleteOf (reference : String) : StoreRequest := .delete (pushOf reference)

def emptyObjectDigest : String := "sha256:44136fa355b3678a1146ad16f7e8649e94fb4fc21fe77e8310c060f61caaff8a"

/-- A push of `latest`, whose link is written after a delete of its digest has come and gone. -/
def overtakenPush : List (Move StoreRequest) :=
  [.start 0 (.put (pushOf "latest") emptyObject), .advance 0,
    .start 1 (deleteOf emptyObjectDigest), .advance 1, .advance 1, .advance 0]

/-- A push of a tag the store encodes, and then a delete of its digest. -/
def encodedPush : List (Move StoreRequest) :=
  [.start 0 (.put (pushOf "v1~rc") emptyObject), .advance 0, .advance 0,
    .start 1 (deleteOf emptyObjectDigest), .advance 1, .advance 1, .advance 1]

/-- The repository of the demonstrations. -/
def demoRepo : ManifestRef := ⟨"acme", "web", "app", ""⟩

/-- What a run leaves: no flight, the tag on the digest of the empty object, and its manifest
or not. -/
def Left (moves : List (Move StoreRequest)) (tag : String) (stored : Bool) : Prop :=
  (Run.after (handlers emptyStoreEnv).step ⟨∅, ∅⟩ moves).flights.keys = [] ∧
    readTagLink (Run.after (handlers emptyStoreEnv).step ⟨∅, ∅⟩ moves).shared demoRepo tag =
      some emptyObjectDigest ∧
    decide (demoRepo.object emptyObjectDigest ∈
      (Run.after (handlers emptyStoreEnv).step ⟨∅, ∅⟩ moves).shared) = stored

instance (moves : List (Move StoreRequest)) (tag : String) (stored : Bool) :
    Decidable (Left moves tag stored) :=
  inferInstanceAs (Decidable (_ ∧ _ ∧ _))

/-- A push of `latest` that nothing interrupts. -/
def lonePush : List (Move StoreRequest) :=
  [.start 0 (.put (pushOf "latest") emptyObject), .advance 0, .advance 0]

theorem lone_push_leaves_no_dangling_tags :
    readTagLink (Run.after (handlers emptyStoreEnv).step ⟨∅, ∅⟩ lonePush).shared demoRepo
        "latest" = some emptyObjectDigest ∧
      NoDangling demoRepo (Run.after (handlers emptyStoreEnv).step ⟨∅, ∅⟩ lonePush).shared := by
  have left : Left lonePush "latest" true := by decide +kernel
  refine ⟨left.2.1, careful_runs_leave_no_dangling_tags emptyStoreEnv demoRepo ∅ lonePush
    ?_ (lone_push_careful ∅ 0 ⟨by decide, .inr (by decide +kernel)⟩)
    (Table.eq_empty_of_keys left.1)⟩
  intro tag digest read
  cases read

/-- Both runs end with no request in flight and the tag on a manifest that is gone. -/
theorem tag_outlives_manifest :
    ((Run.after (handlers emptyStoreEnv).step ⟨∅, ∅⟩ overtakenPush).flights = ∅ ∧ ¬ NoDangling demoRepo
        (Run.after (handlers emptyStoreEnv).step ⟨∅, ∅⟩ overtakenPush).shared) ∧
    ((Run.after (handlers emptyStoreEnv).step ⟨∅, ∅⟩ encodedPush).flights = ∅ ∧ ¬ NoDangling demoRepo
        (Run.after (handlers emptyStoreEnv).step ⟨∅, ∅⟩ encodedPush).shared) := by
  have dangles : ∀ (moves : List (Move StoreRequest)) (tag : String),
      Left moves tag false → (Run.after (handlers emptyStoreEnv).step ⟨∅, ∅⟩ moves).flights = ∅ ∧
        ¬ NoDangling demoRepo (Run.after (handlers emptyStoreEnv).step ⟨∅, ∅⟩ moves).shared := by
    rintro moves tag ⟨quiet, read, gone⟩
    refine ⟨Table.eq_empty_of_keys quiet, fun sound => ?_⟩
    have stored := sound tag emptyObjectDigest read
    exact of_decide_eq_false gone stored
  constructor
  · exact dangles overtakenPush "latest" (by decide +kernel)
  · exact dangles encodedPush "v1~rc" (by decide +kernel)

end SpectonCr.Registry
