import SpectonCr.Replication.Links

/-! One operation at the primary, and what its event says of it. -/

namespace SpectonCr.Replication

open Storage Registry Interleaving

section Conditions

variable (env : ReplicaEnv)

/-- What is asked of the names in a request, and of the TTL of a push. -/
def Request.Proper : Request → Prop
  | .put request _ _ =>
    Named env request.params.tenant request.params.project request.params.name ∧
      request.params.Nameable request.params.reference ∧
      env.carried request.params.reference = some request.params.reference ∧
      env.ttlPanics request = false
  | .delete request _ => PlainRepo request.params.tenant request.params.project request.params.name
  | .upload _ params _ _ _ _ => Named env params.tenant params.project params.name

instance : ∀ request : Request, Decidable (request.Proper env)
  | .put _ _ _ => inferInstanceAs (Decidable (_ ∧ _ ∧ _ ∧ _))
  | .delete _ _ => inferInstanceAs (Decidable (PlainRepo _ _ _))
  | .upload _ _ _ _ _ _ => inferInstanceAs (Decidable (Named env _ _ _))

/-- The event of a request that has looked at the links, or changed them, and not enqueued it. -/
def Stage.unannounced : Stage → Option QueuedEvent
  | .writing (.reading _) event => some event
  | .writing (.erasing _) event => some event
  | .enqueuing event _ => some event
  | _ => none

/-- The request has an event about the link that is not enqueued yet. -/
def Stage.Holds (link : StorePath) (stage : Stage) : Prop :=
  ∃ event ∈ stage.unannounced, event.editOn link ≠ .keep

instance (link : StorePath) (stage : Stage) : Decidable (stage.Holds link) :=
  inferInstanceAs (Decidable (∃ event ∈ stage.unannounced, event.editOn link ≠ .keep))

/-- The link the request is about to write or erase. -/
def Stage.target : Stage → Option StorePath
  | .writing (.linking params _ _) _ => some (params.tagLink params.reference)
  | .writing (.unlinking params _ _) _ => some (params.tagLink params.reference)
  | .writing (.erasing scan) _ => some scan.link
  | _ => none

end Conditions

section Stages

variable {env : ReplicaEnv} {event : QueuedEvent} {store : ObjectStore}

/-- The event of a request whose links are changed already, and which will enqueue it. -/
def Stage.owed : Stage → Option QueuedEvent
  | .writing (.reading scan) event => if scan.removed = [] then none else some event
  | .writing (.erasing scan) event => if scan.removed = [] then none else some event
  | .enqueuing event _ => some event
  | _ => none

theorem Stage.unannounced_of_owed {stage : Stage} (owed : stage.owed = some event) :
    stage.unannounced = some event := by
  cases stage with
  | writing flight noted =>
    cases flight with
    | reading scan | erasing scan =>
      simp only [Stage.owed] at owed
      split at owed
      · cases owed
      · exact owed
    | _ => cases owed
  | uploading flight => cases owed
  | enqueuing noted answer => exact owed
  | answering noted answer => cases owed

theorem Stage.keeps_of_not_holds {stage : Stage} {link : StorePath}
    (owed : stage.owed = some event) (free : ¬ stage.Holds link) : event.editOn link = .keep := by
  by_contra edits
  exact free ⟨event, Stage.unannounced_of_owed owed, edits⟩

/-- The event announces a push of the reference to the digest. -/
def Announces (event : QueuedEvent) (params : ManifestRef) (digest : String) : Prop :=
  event.eventType = .manifestPush ∧ event.params = params ∧ event.digest = digest

/-- The event announces a delete of the tag. -/
def AnnouncesUntag (event : QueuedEvent) (params : ManifestRef) : Prop :=
  event.eventType = .manifestDelete ∧ event.params = params ∧
    Text.startsWith params.reference "sha256:" = false

/-- The event announces a delete by digest. -/
def AnnouncesDelete (event : QueuedEvent) (deletion : Deletion) : Prop :=
  event.eventType = .manifestDelete ∧ Text.startsWith event.reference "sha256:" = true ∧
    event.params.OnRepo deletion.params ∧ deletion.digest = event.digest ∧
    reachesEnqueue deletion.answer = true

/-- What a scan has in hand: the links ahead of it are shown ones. -/
def Scanning (event : QueuedEvent) (scan : Scan) : Prop :=
  AnnouncesDelete event scan.deletion ∧ listedTag event.params scan.link = some scan.tag ∧
    ∀ link ∈ scan.link :: scan.rest, event.params.Shown link

/-- The event of a flight is the one that says what the flight does. -/
def Matches (event : QueuedEvent) : Flight → Prop
  | .storing params digest _ answer => Announces event params digest ∧ reachesEnqueue answer = true
  | .linking params digest answer =>
    Announces event params digest ∧ Text.startsWith params.reference "sha256:" = false ∧
      reachesEnqueue answer = true
  | .resolving params _ answer => AnnouncesUntag event params ∧ reachesEnqueue answer = true
  | .unlinking params _ answer => AnnouncesUntag event params ∧ reachesEnqueue answer = true
  | .removing deletion => AnnouncesDelete event deletion
  | .listing deletion _ => AnnouncesDelete event deletion
  | .reading scan => Scanning event scan
  | .erasing scan => Scanning event scan

/-- Every link that names the digest is still ahead of the delete. -/
def Ahead (event : QueuedEvent) (store : ObjectStore) (links : List StorePath) : Prop :=
  ∀ link, TagLink link → event.params.BelowTags link →
    linkDigest store link = some event.digest → link ∈ links

/-- The store shows the event carried out. -/
def Absorbed (event : QueuedEvent) (store : ObjectStore) : Prop :=
  ∀ link, TagLink link → (event.editOn link).apply (linkDigest store link) = linkDigest store link

/-- What a stage has found or left in the store. -/
def Stage.Found (store : ObjectStore) : Stage → Prop
  | .writing (.reading scan) event => Ahead event store (scan.link :: scan.rest)
  | .writing (.erasing scan) event => Ahead event store (scan.link :: scan.rest) ∧
      linkDigest store scan.link = some event.digest
  | .enqueuing event _ => Absorbed event store
  | _ => True

def Stage.Fits (env : ReplicaEnv) (store : ObjectStore) (stage : Stage) : Prop :=
  stage.Found store ∧ match stage with
    | .writing flight event => event.Sound env ∧ Matches event flight
    | .uploading flight => Named env flight.completion.params.tenant
        flight.completion.params.project flight.completion.params.name
    | .enqueuing event _ => event.Sound env
    | .answering _ _ => True

/-- A stage keeps what it found while the links it holds are unchanged. -/
theorem Stage.Fits.unchanged {stage : Stage} {after : ObjectStore} (fits : stage.Fits env store)
    (same : ∀ link, TagLink link → stage.Holds link → linkDigest after link = linkDigest store link) :
    stage.Fits env after := by
  refine ⟨?_, fits.2⟩
  have found := fits.1
  cases stage with
  | writing flight event =>
    have belows : ∀ {scan : Scan}, Scanning event scan → (∀ link, TagLink link →
        event.editOn link ≠ .keep → linkDigest after link = linkDigest store link) →
        Ahead event store (scan.link :: scan.rest) →
        Ahead event after (scan.link :: scan.rest) := by
      intro scan scanning untouched ahead link tagLink below names
      refine ahead link tagLink below ?_
      rw [← untouched link tagLink ?_]
      · exact names
      · obtain ⟨⟨kind, byDigest, _⟩, _⟩ := scanning
        simp [QueuedEvent.editOn, kind, byDigest, below]
    cases flight with
    | reading scan =>
      exact belows fits.2.2 (fun link tagLink edits => same link tagLink ⟨event, rfl, edits⟩) found
    | erasing scan =>
      have scanning : Scanning event scan := fits.2.2
      refine ⟨belows scanning (fun link tagLink edits => same link tagLink ⟨event, rfl, edits⟩) found.1, ?_⟩
      have shown := scanning.2.2 scan.link List.mem_cons_self
      rw [same scan.link ⟨event.params, fits.2.1.plain, shown⟩ ⟨event, rfl, ?_⟩]
      · exact found.2
      · obtain ⟨⟨kind, byDigest, _⟩, _⟩ := scanning
        simp [QueuedEvent.editOn, kind, byDigest, shown.1]
    | _ => trivial
  | uploading flight => trivial
  | enqueuing event answer =>
    intro link tagLink
    by_cases keeps : event.editOn link = .keep
    · rw [keeps]
      rfl
    · rw [same link tagLink ⟨event, rfl, keeps⟩]
      exact found link tagLink
  | answering event answer => trivial

end Stages

open Flight

section Operations

variable {env : ReplicaEnv} {event : QueuedEvent} {store before after : ObjectStore}

/-- What an operation of a request does: at most its own link changes, as the event says that it
will enqueue. -/
structure Advanced (env : ReplicaEnv) (stage : Stage) (before after : ObjectStore)
    (result : Stage ⊕ StoreAnswer) : Prop where
  next : ∀ rest, result = .inl rest → rest.Fits env after
  owed : ∀ event, stage.owed = some event → ∃ rest, result = .inl rest ∧ rest.owed = some event
  links : ∀ link, TagLink link → linkDigest after link = linkDigest before link ∨
    stage.target = some link ∧ ∃ rest event, result = .inl rest ∧ rest.owed = some event ∧
      linkDigest after link = (event.editOn link).apply (linkDigest before link)
  shown : OnlyShown before → OnlyShown after

theorem Advanced.of_kept (owes : stage.owed = none) (kept : Edited (fun _ => .keep) before after)
    (next : ∀ rest, result = .inl rest → rest.Fits env after) :
    Advanced env stage before after result where
  next := next
  owed event owed := by rw [owes] at owed; cases owed
  links link tagLink := .inl (kept.links link tagLink)
  shown := kept.shown

theorem Edited.absorbed (edited : Edited event.editOn before after) : Absorbed event after := by
  intro link tagLink
  rw [edited.links link tagLink, LinkEdit.apply_apply]

theorem absorbed_of_keeps (keeps : ∀ link, event.editOn link = .keep) : Absorbed event store := by
  intro link _
  rw [keeps link]
  rfl

theorem editOn_tagPush (announces : Announces event params digest)
    (tagged : Text.startsWith params.reference "sha256:" = false) (link : StorePath) :
    event.editOn link = if link = params.tagLink params.reference then .write digest else .keep := by
  obtain ⟨kind, rfl, rfl⟩ := announces
  have byTag : Text.startsWith event.reference "sha256:" = false := tagged
  simp only [QueuedEvent.editOn, kind, byTag]
  rfl

theorem editOn_untag (announces : AnnouncesUntag event params) (link : StorePath) :
    event.editOn link = if link = params.tagLink params.reference then .drop else .keep := by
  obtain ⟨kind, rfl, tagged⟩ := announces
  have byTag : Text.startsWith event.reference "sha256:" = false := tagged
  simp only [QueuedEvent.editOn, kind, byTag]
  rfl

theorem editOn_delete (announces : AnnouncesDelete event deletion) (link : StorePath) :
    event.editOn link = if event.params.BelowTags link then .dropNamed event.digest else .keep := by
  obtain ⟨kind, byDigest, _⟩ := announces
  simp only [QueuedEvent.editOn, kind, if_pos byDigest]

/-- Past its store operations a request goes on only to its enqueue. -/
theorem eq_enqueuing (going : goOn event (.inr answer) = .inl rest) : rest = .enqueuing event answer := by
  rw [goOn] at going
  split at going
  · exact (Sum.inl.inj going).symm
  · cases going

theorem storing_advanced (sound : event.Sound env)
    (matching : Matches event (.storing params digest body answer)) :
    Advanced env (.writing (.storing params digest body answer) event) store
      ((storing params digest body answer).operate store).1
      (goOn event ((storing params digest body answer).operate store).2) := by
  obtain ⟨announces, reaches⟩ := matching
  have plain : PlainNames params := announces.2.1 ▸ sound.plain
  refine .of_kept rfl (edited_insert_outside (outside_object plain digest) body) ?_
  intro rest going
  simp only [operate] at going
  by_cases byDigest : Text.startsWith params.reference "sha256:" = true
  · rw [if_pos byDigest, goOn, if_pos reaches] at going
    cases going
    refine ⟨absorbed_of_keeps fun link => ?_, sound⟩
    obtain ⟨kind, rfl, rfl⟩ := announces
    have named : Text.startsWith event.reference "sha256:" = true := byDigest
    simp only [QueuedEvent.editOn, kind, if_pos named]
  · rw [if_neg byDigest] at going
    cases going
    exact ⟨trivial, sound, announces, by simpa using byDigest, reaches⟩

theorem linking_advanced (sound : event.Sound env) (matching : Matches event (.linking params digest answer)) :
    Advanced env (.writing (.linking params digest answer) event) store
      ((linking params digest answer).operate store).1
      (goOn event ((linking params digest answer).operate store).2) := by
  obtain ⟨announces, tagged, reaches⟩ := matching
  have edits := editOn_tagPush announces tagged
  have edited : Edited event.editOn store (store.insert (params.tagLink params.reference) digest.toUTF8) := by
    obtain ⟨kind, rfl, rfl⟩ := announces
    obtain ⟨nameable, trimmed, _⟩ := sound.pushed kind
    have shown : event.params.Shown (event.params.tagLink event.reference) := by
      refine nameable.resolve_left ?_
      rw [show Text.startsWith event.reference "sha256:" = false from tagged]
      decide
    exact (edited_link sound.plain shown trimmed).congr fun link => (edits link).symm
  have result : goOn event ((linking params digest answer).operate store).2 =
      .inl (.enqueuing event answer) := if_pos reaches
  rw [result]
  constructor
  · intro rest going
    cases going
    exact ⟨edited.absorbed, sound⟩
  · intro owing owed
    cases owed
  · intro link tagLink
    by_cases here : link = params.tagLink params.reference
    · exact .inr ⟨congrArg some here.symm, _, event, rfl, rfl, edited.links link tagLink⟩
    · refine .inl ((edited.links link tagLink).trans ?_)
      rw [edits link, if_neg here]
      rfl
  · exact edited.shown

theorem resolving_advanced (sound : event.Sound env)
    (matching : Matches event (.resolving params gone answer)) :
    Advanced env (.writing (.resolving params gone answer) event) store
      ((resolving params gone answer).operate store).1
      (goOn (noteDigest (.resolving params gone answer) store event)
        ((resolving params gone answer).operate store).2) := by
  obtain ⟨announces, reaches⟩ := matching
  refine .of_kept rfl (.refl store) ?_
  intro rest going
  simp only [operate] at going
  cases read : readTagLink store params params.reference with
  | none =>
    rw [read] at going
    cases going
  | some digest =>
    rw [read] at going
    cases going
    have deletes : (noteDigest (.resolving params gone answer) store event).eventType =
        .manifestDelete := announces.1
    refine ⟨trivial, ⟨sound.plain, ?_, ?_⟩, announces, reaches⟩
    · intro pushes
      rw [deletes] at pushes
      cases pushes
    · intro other
      exact absurd deletes other

theorem unlinking_advanced (sound : event.Sound env)
    (matching : Matches event (.unlinking params gone answer)) :
    Advanced env (.writing (.unlinking params gone answer) event) store
      ((unlinking params gone answer).operate store).1
      (goOn event ((unlinking params gone answer).operate store).2) := by
  obtain ⟨announces, reaches⟩ := matching
  have edits := editOn_untag announces
  have edited : Edited event.editOn store (store.erase (params.tagLink params.reference)) :=
    (edited_erase (params.tagLink params.reference)).congr fun link => (edits link).symm
  constructor
  · intro rest going
    obtain rfl := eq_enqueuing going
    exact ⟨edited.absorbed, sound⟩
  · intro owing owed
    cases owed
  · intro link tagLink
    by_cases here : link = params.tagLink params.reference
    · by_cases present : params.tagLink params.reference ∈ store
      · refine .inr ⟨congrArg some here.symm, .enqueuing event answer, event, ?_, rfl,
          edited.links link tagLink⟩
        simp only [operate, if_pos present, goOn, if_pos reaches]
      refine .inl ?_
      have same : store.erase (params.tagLink params.reference) = store :=
        AList.ext (List.kerase_of_notMem_keys present)
      simp only [operate, same]
    · refine .inl ((edited.links link tagLink).trans ?_)
      rw [edits link, if_neg here]
      rfl
  · exact edited.shown

section Scans

variable {deletion : Deletion} {removed : List String} {links : List StorePath}

/-- A scan goes on to the first link ahead of it, or to the enqueue when it has passed them all. -/
theorem scanLinks_fits (sound : event.Sound env) (announces : AnnouncesDelete event deletion) (existed : Bool)
    (removed : List String) (shown : ∀ link ∈ links, event.params.Shown link)
    (ahead : Ahead event store links)
    (going : goOn event (scanLinks deletion existed removed links) = .inl rest) : rest.Fits env store := by
  cases links with
  | nil =>
    obtain rfl := eq_enqueuing going
    refine ⟨?_, sound⟩
    intro link tagLink
    rw [editOn_delete announces]
    by_cases below : event.params.BelowTags link
    · have other : linkDigest store link ≠ some event.digest :=
        fun named => List.not_mem_nil (ahead link tagLink below named)
      rw [if_pos below, LinkEdit.apply, if_neg other]
    · rw [if_neg below]
      rfl
  | cons link tail =>
    obtain ⟨tag, listed, _⟩ := (shown link List.mem_cons_self).listed
    rw [scanLinks, announces.2.2.1.listedTag, listed] at going
    cases going
    exact ⟨ahead, sound, announces, listed, shown⟩

/-- A scan that has removed a link comes to its enqueue. -/
theorem scanLinks_owed (announces : AnnouncesDelete event deletion) (existed : Bool) (some : removed ≠ [])
    (shown : ∀ link ∈ links, event.params.Shown link) :
    ∃ rest, goOn event (scanLinks deletion existed removed links) = .inl rest ∧ rest.owed = .some event := by
  cases links with
  | nil =>
    have found : (!existed && removed.isEmpty) = false := by simp [some]
    refine ⟨.enqueuing event deletion.answer, ?_, rfl⟩
    rw [scanLinks, found]
    exact if_pos announces.2.2.2.2
  | cons link tail =>
    obtain ⟨tag, listed, _⟩ := (shown link List.mem_cons_self).listed
    refine ⟨.writing (.reading ⟨deletion, existed, removed, tag, link, tail⟩) event, ?_, ?_⟩
    · rw [scanLinks, announces.2.2.1.listedTag, listed]
      rfl
    · exact if_neg some

end Scans

theorem removing_advanced (sound : event.Sound env) (matching : Matches event (.removing deletion)) :
    Advanced env (.writing (.removing deletion) event) store ((removing deletion).operate store).1
      (goOn event ((removing deletion).operate store).2) := by
  have onRepo : event.params.OnRepo deletion.params := matching.2.2.1
  have outside : Outside (deletion.params.object deletion.digest) := by
    rw [onRepo.object]
    exact outside_object sound.plain deletion.digest
  refine .of_kept rfl (edited_erase_outside outside) ?_
  intro rest going
  cases going
  exact ⟨trivial, sound, matching⟩

theorem listing_advanced (sound : event.Sound env) (only : OnlyShown store)
    (matching : Matches event (.listing deletion existed)) :
    Advanced env (.writing (.listing deletion existed) event) store
      ((listing deletion existed).operate store).1
      (goOn event ((listing deletion existed).operate store).2) := by
  have announces : AnnouncesDelete event deletion := matching
  refine .of_kept rfl (.refl store) ?_
  intro rest going
  simp only [operate, announces.2.2.1.tags] at going
  refine scanLinks_fits sound announces existed [] ?_ ?_ going
  · intro link listed
    obtain ⟨present, below⟩ := mem_list_tags.mp listed
    exact only event.params sound.plain link present (atTags_of_below sound.plain below)
  · intro link _ below named
    obtain ⟨bytes, found, _⟩ := Option.map_eq_some_iff.mp named
    exact mem_list_tags.mpr ⟨Table.mem_of_lookup found, below⟩

theorem reading_advanced (sound : event.Sound env) (matching : Matches event (.reading scan))
    (ahead : Ahead event store (scan.link :: scan.rest)) :
    Advanced env (.writing (.reading scan) event) store ((reading scan).operate store).1
      (goOn event ((reading scan).operate store).2) := by
  obtain ⟨announces, listed, shown⟩ := matching
  have tail : ∀ link ∈ scan.rest, event.params.Shown link :=
    fun link member => shown link (List.mem_cons_of_mem _ member)
  have read : readTagLink store scan.deletion.params scan.tag = linkDigest store scan.link := by
    obtain ⟨tag, found, linked⟩ := (shown scan.link List.mem_cons_self).listed
    rw [listed] at found
    cases found
    rw [announces.2.2.1.readTagLink, readTagLink, linked]
    rfl
  have digest : scan.deletion.digest = event.digest := announces.2.2.2.1
  by_cases named : linkDigest store scan.link = some event.digest
  · have result : (reading scan).operate store = (store, .inl (.erasing scan)) := by
      simp only [operate, read, digest, if_pos named]
    rw [result]
    refine ⟨?_, ?_, fun link _ => .inl rfl, id⟩
    · intro rest going
      cases going
      exact ⟨⟨ahead, named⟩, sound, announces, listed, shown⟩
    · intro owing owed
      exact ⟨_, rfl, owed⟩
  · have result : (reading scan).operate store =
        (store, scanLinks scan.deletion scan.existed scan.removed scan.rest) := by
      simp only [operate, read, digest, if_neg named]
    rw [result]
    refine ⟨?_, ?_, fun link _ => .inl rfl, id⟩
    · intro rest going
      refine scanLinks_fits sound announces scan.existed scan.removed tail ?_ going
      intro link tagLink below names
      rcases List.mem_cons.mp (ahead link tagLink below names) with rfl | later
      · exact absurd names named
      · exact later
    · intro owing owed
      simp only [Stage.owed] at owed
      split at owed
      · cases owed
      · rename_i some
        cases owed
        exact scanLinks_owed announces scan.existed some tail

theorem erasing_advanced (sound : event.Sound env) (matching : Matches event (.erasing scan))
    (ahead : Ahead event store (scan.link :: scan.rest))
    (named : linkDigest store scan.link = some event.digest) :
    Advanced env (.writing (.erasing scan) event) store ((erasing scan).operate store).1
      (goOn event ((erasing scan).operate store).2) := by
  obtain ⟨announces, listed, shown⟩ := matching
  have tail : ∀ link ∈ scan.rest, event.params.Shown link :=
    fun link member => shown link (List.mem_cons_of_mem _ member)
  have present : scan.link ∈ store := by
    obtain ⟨bytes, found, _⟩ := Option.map_eq_some_iff.mp named
    exact Table.mem_of_lookup found
  have result : (erasing scan).operate store = (store.erase scan.link,
      scanLinks scan.deletion scan.existed (scan.removed ++ [scan.tag]) scan.rest) :=
    if_pos present
  have erased : Edited (fun link => if link = scan.link then .drop else .keep) store
      (store.erase scan.link) := edited_erase scan.link
  have owes : ∃ rest, goOn event (scanLinks scan.deletion scan.existed
      (scan.removed ++ [scan.tag]) scan.rest) = .inl rest ∧ rest.owed = some event :=
    scanLinks_owed announces scan.existed (by simp) tail
  rw [result]
  constructor
  · intro rest going
    refine scanLinks_fits sound announces _ _ tail ?_ going
    intro link tagLink below names
    by_cases here : link = scan.link
    · rw [erased.links link tagLink, if_pos here] at names
      cases names
    rw [erased.links link tagLink, if_neg here] at names
    rcases List.mem_cons.mp (ahead link tagLink below names) with same | later
    · exact absurd same here
    · exact later
  · intro owing owed
    simp only [Stage.owed] at owed
    split at owed
    · cases owed
    · cases owed
      exact owes
  · intro link tagLink
    by_cases here : link = scan.link
    · obtain ⟨rest, going, owing⟩ := owes
      refine .inr ⟨congrArg some here.symm, rest, event, going, owing, ?_⟩
      have below := (shown scan.link List.mem_cons_self).1
      rw [erased.links link tagLink, if_pos here, editOn_delete announces, here, if_pos below,
        LinkEdit.apply, LinkEdit.apply, if_pos named]
    · refine .inl ?_
      rw [erased.links link tagLink, if_neg here]
      rfl
  · exact erased.shown

theorem uploading_advanced (named : Named env flight.completion.params.tenant flight.completion.params.project
      flight.completion.params.name) :
    Advanced env (.uploading flight) store (flight.operate env.sha store).1
      (flight.operate env.sha store).2 := by
  cases flight with
  | fetching completion body =>
    refine .of_kept rfl (.refl store) ?_
    intro rest going
    simp only [UploadFlight.operate] at going
    split at going
    · cases going
    split at going
    · cases going
    · cases going
      exact ⟨trivial, named⟩
  | storing completion data =>
    have outside : Outside (completion.params.blob completion.expected) :=
      outside_of_parts (parts_blobPath named.1 completion.expected) (by decide)
    refine .of_kept rfl (edited_insert_outside outside data) ?_
    intro rest going
    cases going
    exact ⟨trivial, named⟩
  | cleaning completion =>
    have outside : Outside completion.params.object :=
      outside_of_parts (parts_uploadPath named.1 completion.params.uuid) (by decide)
    refine .of_kept rfl (edited_erase_outside outside) ?_
    intro rest going
    cases going
    exact ⟨absorbed_of_keeps fun _ => rfl, named.1, nofun, fun _ => named⟩

theorem operate_advanced (fits : stage.Fits env primary.store) (only : OnlyShown primary.store)
    (writes : ∀ event answer, stage ≠ .enqueuing event answer) :
    (stage.operate env.sha primary).1.queue = primary.queue ∧
      Advanced env stage primary.store (stage.operate env.sha primary).1.store
        (stage.operate env.sha primary).2 := by
  cases stage with
  | writing flight event =>
    obtain ⟨found, sound, matching⟩ := fits
    refine ⟨rfl, ?_⟩
    cases flight with
    | storing params digest body answer => exact storing_advanced sound matching
    | linking params digest answer => exact linking_advanced sound matching
    | resolving params gone answer => exact resolving_advanced sound matching
    | unlinking params gone answer => exact unlinking_advanced sound matching
    | removing deletion => exact removing_advanced sound matching
    | listing deletion existed => exact listing_advanced sound only matching
    | reading scan => exact reading_advanced sound matching found
    | erasing scan => exact erasing_advanced sound matching found.1 found.2
  | uploading flight => exact ⟨rfl, uploading_advanced fits.2⟩
  | enqueuing event answer => exact absurd rfl (writes event answer)
  | answering event answer =>
    refine ⟨rfl, .of_kept rfl (.refl primary.store) ?_⟩
    intro rest going
    cases going

theorem spelledDigest_startsWith (spelled : spelledDigest reference = some digest) :
    Text.startsWith digest "sha256:" = true := by
  unfold spelledDigest at spelled
  split at spelled
  · cases spelled
    simp
  split at spelled
  · rename_i colon
    cases spelled
    exact colon
  · cases spelled

theorem not_startsWith_of_tag (tag : spelledDigest reference = none) :
    Text.startsWith reference "sha256:" = false := by
  unfold spelledDigest at tag
  split at tag
  · cases tag
  split at tag
  · cases tag
  · rename_i other
    simpa using other

theorem reachesEnqueue_audited (audit : Except String Unit) :
    reachesEnqueue (.done (audit.mapError RegistryError.auditUnavailable)) = true := by
  cases audit <;> rfl

theorem launch_fits (proper : request.Proper env) (launched : launchRequest env request = .inl stage)
    (store : ObjectStore) : stage.Fits env store := by
  cases request with
  | put request body stamp =>
    obtain ⟨named, nameable, carried, calm⟩ := proper
    simp only [launchRequest, launchPut, calm, Bool.false_eq_true, if_false] at launched
    split at launched
    · cases launched
    split at launched
    · cases launched
    cases launched
    have pushed := And.intro nameable (And.intro (env.sha.trim_digest body)
      (And.intro carried (env.carried_digest body)))
    exact ⟨trivial, ⟨named.1, fun _ => pushed, fun _ => named⟩, ⟨rfl, rfl, rfl⟩, rfl⟩
  | delete request stamp =>
    have sound : ∀ reference digest,
        (QueuedEvent.manifestDelete request.params reference digest stamp).Sound env :=
      fun _ _ => ⟨proper, (by intro same; cases same), fun other => absurd rfl other⟩
    simp only [launchRequest, launchDelete] at launched
    split at launched
    · cases launched
    cases spelled : spelledDigest request.params.reference with
    | some digest =>
      simp only [spelled] at launched
      cases launched
      exact ⟨trivial, sound _ _, rfl, spelledDigest_startsWith spelled, rfl, rfl,
        reachesEnqueue_audited request.audit⟩
    | none =>
      simp only [spelled] at launched
      cases launched
      exact ⟨trivial, sound _ _, ⟨rfl, rfl, not_startsWith_of_tag spelled⟩,
        reachesEnqueue_audited request.audit⟩
  | upload claims params digest body audit stamp =>
    simp only [launchRequest] at launched
    split at launched
    · cases launched
    split at launched
    · cases launched
    · cases launched
      exact ⟨trivial, proper⟩

end Operations

end SpectonCr.Replication
