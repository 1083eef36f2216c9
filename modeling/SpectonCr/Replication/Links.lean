import SpectonCr.Registry.DanglingTags
import SpectonCr.Replication.Replicator

namespace SpectonCr.Replication

open Storage Registry Interleaving Resilience

/-- What an event does to the digest a link names. -/
inductive LinkEdit where
  | keep
  | write (digest : String)
  | drop
  | dropNamed (digest : String)
  deriving DecidableEq

def LinkEdit.apply : LinkEdit → Option String → Option String
  | .keep, named => named
  | .write digest, _ => some digest
  | .drop, _ => none
  | .dropNamed digest, named => if named = some digest then none else named

theorem LinkEdit.apply_apply (edit : LinkEdit) (named : Option String) :
    edit.apply (edit.apply named) = edit.apply named := by
  cases edit with
  | keep | write digest | drop => rfl
  | dropNamed digest =>
    by_cases same : named = some digest <;> simp [apply, same]

/-- An edit that the present value has absorbed may be put before one that is still owed. -/
theorem LinkEdit.settles {first owed : LinkEdit} {base now : Option String} (absorbed : first.apply now = now)
    (due : owed.apply base = now) : first.apply base = now ∨ owed.apply (first.apply base) = now := by
  cases owed with
  | keep => exact .inl (by rw [← due] at absorbed ⊢; exact absorbed)
  | write digest | drop => exact .inr due
  | dropNamed digest =>
    by_cases same : base = some digest
    · simp only [apply, same, if_true] at due
      subst due
      cases first with
      | keep => exact .inr (by simp [apply, same])
      | write other => simp [apply] at absorbed
      | drop => exact .inl rfl
      | dropNamed other =>
        by_cases named : some digest = some other
        · exact .inl (by simp [apply, same, named])
        · exact .inr (by simp [apply, same, named])
    · simp only [apply, same, if_false] at due
      subst due
      exact .inl absorbed

/-- The edit an event makes of a link wherever it is carried out. -/
def QueuedEvent.editOn (event : QueuedEvent) (link : StorePath) : LinkEdit :=
  match event.eventType with
  | .blobPush => .keep
  | .manifestPush =>
    if Text.startsWith event.reference "sha256:" then .keep
    else if link = event.params.tagLink event.reference then .write event.digest else .keep
  | .manifestDelete =>
    if Text.startsWith event.reference "sha256:" then
      if event.params.BelowTags link then .dropNamed event.digest else .keep
    else if link = event.params.tagLink event.reference then .drop else .keep

/-- The digest a link names after the events. -/
def replay (link : StorePath) (named : Option String) (events : List QueuedEvent) : Option String :=
  events.foldl (fun named event => (event.editOn link).apply named) named

section Links

/-- The digest `read_tag_link` finds in a link. -/
def linkDigest (store : ObjectStore) (link : StorePath) : Option String :=
  (store.lookup link).map fun bytes => Text.trim (fromUtf8Lossy bytes)

/-- A path in the directory of the repository's tags. -/
def AtTags (repo : ManifestRef) (path : StorePath) : Prop :=
  ∃ rest, path.parts = repo.tenant :: repo.project :: repo.name :: "tags" :: rest

/-- A repository whose three names are one path segment each. -/
def PlainNames (repo : ManifestRef) : Prop := PlainRepo repo.tenant repo.project repo.name

/-- The link of a tag that the listing shows under its own name. -/
def TagLink (link : StorePath) : Prop := ∃ repo, PlainNames repo ∧ repo.Shown link

/-- A store without links that the listing would show under another name. -/
def OnlyShown (store : ObjectStore) : Prop :=
  ∀ repo, PlainNames repo → ∀ link ∈ store, AtTags repo link → repo.Shown link

/-- A path that is in no directory of tags. -/
def Outside (path : StorePath) : Prop := ∀ repo, ¬ AtTags repo path

variable {repo other : ManifestRef} {link path : StorePath}

theorem tags_parts (plain : PlainNames repo) :
    repo.tags.parts = [repo.tenant, repo.project, repo.name, "tags"] := by
  simp only [ManifestRef.tags, StorePath.ofString, segments_tagsPrefix, PlainRepo.segments plain]
  rfl

theorem atTags_of_below (plain : PlainNames repo) (below : repo.BelowTags link) : AtTags repo link := by
  obtain ⟨rest, parts⟩ := List.isPrefixOf_iff_prefix.mp below.1
  rw [tags_parts plain] at parts
  exact ⟨rest, parts.symm⟩

theorem atTags_tagLink (plain : PlainNames repo) (tag : String) : AtTags repo (repo.tagLink tag) :=
  ⟨segments tag, parts_tagLinkPath plain tag⟩

theorem onRepo_of_atTags (first : AtTags repo link) (second : AtTags other link) : repo.OnRepo other := by
  obtain ⟨rest, parts⟩ := first
  obtain ⟨tail, shape⟩ := second
  rw [parts] at shape
  cases repo
  cases other
  simp only [List.cons.injEq] at shape
  obtain ⟨rfl, rfl, rfl, _⟩ := shape
  rfl

theorem shown_of_onRepo (onRepo : repo.OnRepo other) (shown : repo.Shown link) : other.Shown link := by
  rw [onRepo]
  exact shown

theorem TagLink.shown (tagLink : TagLink link) (plain : PlainNames other)
    (below : other.BelowTags link) : other.Shown link := by
  obtain ⟨repo, names, shown⟩ := tagLink
  exact shown_of_onRepo (onRepo_of_atTags (atTags_of_below names shown.1) (atTags_of_below plain below)) shown

theorem TagLink.ne_outside (tagLink : TagLink link) (outside : Outside path) : link ≠ path := by
  rintro rfl
  obtain ⟨repo, names, shown⟩ := tagLink
  exact outside repo (atTags_of_below names shown.1)

theorem outside_of_parts (parts : path.parts = first :: second :: third :: directory :: rest)
    (elsewhere : directory ≠ "tags") : Outside path := by
  rintro repo ⟨tail, shape⟩
  rw [parts] at shape
  simp only [List.cons.injEq] at shape
  exact elsewhere shape.2.2.2.1

theorem outside_object (plain : PlainNames repo) (digest : String) : Outside (repo.object digest) :=
  outside_of_parts (parts_manifestPath plain digest) (by decide)

theorem hyphenated_plain (id : Uuid) : '/' ∉ id.hyphenated.toList := by
  have digits : '/' ∉ hexChars id.bytes := by
    intro member
    have alphabet := isHexChar_of_mem_hexChars member
    revert alphabet
    decide
  have taken : ∀ count, '/' ∉ (hexChars id.bytes).take count :=
    fun _ member => digits (List.mem_of_mem_take member)
  have dropped : ∀ count, '/' ∉ (hexChars id.bytes).drop count :=
    fun _ member => digits (List.mem_of_mem_drop member)
  have middle : ∀ first count, '/' ∉ ((hexChars id.bytes).drop first).take count :=
    fun first _ member => dropped first (List.mem_of_mem_take member)
  simp [Uuid.hyphenated, taken, dropped, middle]

theorem outside_storagePath (env : ReplicaEnv) (event : QueuedEvent) :
    Outside (.ofString (storagePath env event)) := by
  have file : Plain (env.formatTime event.stamp.timestamp ++ "-" ++
      event.stamp.id.hyphenated ++ ".json") := by
    constructor
    · simp [env.formatTime_plain, hyphenated_plain]
    · intro empty
      have chars := congrArg String.toList empty
      simp at chars
  have layout : storagePath env event = "_replication" ++ "/" ++ "events" ++ "/" ++
      (env.formatTime event.stamp.timestamp ++ "-" ++ event.stamp.id.hyphenated ++ ".json") := by
    have directory : "_replication/events/" = "_replication" ++ "/" ++ "events" ++ "/" := by
      decide
    unfold storagePath
    rw [directory]
    simp only [String.append_assoc]
  have parts : segments (storagePath env event) = ["_replication", "events",
      env.formatTime event.stamp.timestamp ++ "-" ++ event.stamp.id.hyphenated ++ ".json"] := by
    rw [layout, segments_join, segments_join, file.segments,
      Plain.segments (show Plain "_replication" by decide),
      Plain.segments (show Plain "events" by decide)]
    rfl
  rintro repo ⟨rest, shape⟩
  rw [show (StorePath.ofString (storagePath env event)).parts = _ from parts] at shape
  simp at shape

/-- The second store has the links of the first, edited as given. -/
structure Edited (edit : StorePath → LinkEdit) (before after : ObjectStore) : Prop where
  links : ∀ link, TagLink link → linkDigest after link = (edit link).apply (linkDigest before link)
  shown : OnlyShown before → OnlyShown after

variable {edit : StorePath → LinkEdit} {store before middle after : ObjectStore}

theorem Edited.refl (store : ObjectStore) : Edited (fun _ => .keep) store store := ⟨fun _ _ => rfl, id⟩

theorem Edited.trans (first : Edited (fun _ => .keep) before middle)
    (second : Edited edit middle after) : Edited edit before after where
  links link tagLink := by
    rw [second.links link tagLink, first.links link tagLink]
    rfl
  shown only := second.shown (first.shown only)

theorem Edited.congr {other : StorePath → LinkEdit} (edited : Edited edit before after)
    (same : ∀ link, edit link = other link) : Edited other before after where
  links link tagLink := by rw [← same link]; exact edited.links link tagLink
  shown := edited.shown

theorem OnlyShown.erase (only : OnlyShown store) (path : StorePath) : OnlyShown (store.erase path) :=
  fun repo plain link member at_ => only repo plain link (AList.mem_erase.mp member).2 at_

theorem edited_insert_outside (outside : Outside path) (bytes : Bytes) :
    Edited (fun _ => .keep) store (store.insert path bytes) where
  links link tagLink := by
    rw [linkDigest, AList.lookup_insert_ne (tagLink.ne_outside outside)]
    rfl
  shown only repo plain link member at_ := by
    rcases (AList.mem_insert _).mp member with rfl | present
    · exact absurd at_ (outside repo)
    · exact only repo plain link present at_

theorem edited_erase_outside (outside : Outside path) : Edited (fun _ => .keep) store (store.erase path) where
  links link tagLink := by
    rw [linkDigest, AList.lookup_erase_ne (tagLink.ne_outside outside)]
    rfl
  shown only := only.erase path

theorem edited_erase (path : StorePath) :
    Edited (fun link => if link = path then .drop else .keep) store (store.erase path) where
  links link _ := by
    by_cases same : link = path
    · subst same
      simp [linkDigest, LinkEdit.apply]
    · rw [if_neg same, linkDigest, AList.lookup_erase_ne same]
      rfl
  shown only := only.erase path

theorem edited_link (plain : PlainNames repo) (shown : repo.Shown path)
    (trimmed : Text.trim digest = digest) :
    Edited (fun link => if link = path then .write digest else .keep) store
      (store.insert path digest.toUTF8) where
  links link _ := by
    by_cases same : link = path
    · subst same
      simp [linkDigest, LinkEdit.apply, fromUtf8Lossy, trimmed]
    · rw [if_neg same, linkDigest, AList.lookup_insert_ne same]
      rfl
  shown only named names link member at_ := by
    rcases (AList.mem_insert _).mp member with rfl | present
    · exact shown_of_onRepo (onRepo_of_atTags (atTags_of_below plain shown.1) at_) shown
    · exact only named names link present at_

end Links

section Handlers

variable {params : ManifestRef} {link : StorePath} {digest : String} {store : ObjectStore}

theorem edited_storeManifest (plain : PlainNames params) (nameable : params.Nameable params.reference)
    (trimmed : Text.trim digest = digest) (body : Bytes) :
    Edited (fun link => if Text.startsWith params.reference "sha256:" then .keep
      else if link = params.tagLink params.reference then .write digest else .keep)
      store (storeManifest params digest body store) := by
  have stored : Edited (fun _ => .keep) store (store.insert (params.object digest) body) :=
    edited_insert_outside (outside_object plain digest) body
  unfold storeManifest
  by_cases byDigest : Text.startsWith params.reference "sha256:" = true
  · simp only [if_pos byDigest]
    exact stored
  · simp only [if_neg byDigest]
    exact stored.trans (edited_link plain (nameable.resolve_left byDigest) trimmed)

theorem linkDigest_deleteTag_ne (apart : link ≠ head) (progress : ObjectStore × List String) :
    linkDigest (deleteTag params digest progress head).1 link = linkDigest progress.1 link := by
  unfold deleteTag
  split
  · rfl
  split
  · rw [linkDigest, AList.lookup_erase_ne apart]
    rfl
  · rfl

/-- The loop of a delete reaches a shown link once, and removes it when it names the digest. -/
theorem linkDigest_deleteTags (shown : params.Shown link) (links : List StorePath)
    (progress : ObjectStore × List String) :
    linkDigest (links.foldl (deleteTag params digest) progress).1 link =
      if link ∈ links ∧ linkDigest progress.1 link = some digest then none
      else linkDigest progress.1 link := by
  obtain ⟨tag, listed, linked⟩ := shown.listed
  induction links generalizing progress with
  | nil => simp
  | cons head rest ih =>
    rw [List.foldl_cons, ih]
    by_cases here : head = link
    · subst here
      have read : readTagLink progress.1 params tag = linkDigest progress.1 head := by
        rw [readTagLink, linked]
        rfl
      by_cases named : linkDigest progress.1 head = some digest
      · have present : head ∈ progress.1 := by
          obtain ⟨bytes, found, _⟩ := Option.map_eq_some_iff.mp named
          exact Table.mem_of_lookup found
        have removed : (deleteTag params digest progress head).1 = progress.1.erase head := by
          simp only [deleteTag, listed, read, named, present, and_self, if_true]
        have gone : linkDigest (progress.1.erase head) head = none := by simp [linkDigest]
        rw [removed]
        simp [gone, named]
      · have kept : deleteTag params digest progress head = progress := by
          simp only [deleteTag, listed, read, named, false_and, if_false]
        rw [kept]
        simp [named]
    · have apart : link ≠ head := Ne.symm here
      simp only [linkDigest_deleteTag_ne apart, List.mem_cons, apart, false_or]

theorem linkDigest_deleteTags_of_not_mem {links : List StorePath} (missing : link ∉ links)
    (progress : ObjectStore × List String) :
    linkDigest (links.foldl (deleteTag params digest) progress).1 link = linkDigest progress.1 link := by
  induction links generalizing progress with
  | nil => rfl
  | cons head rest ih =>
    rw [List.foldl_cons, ih fun later => missing (List.mem_cons_of_mem head later)]
    have apart : link ≠ head := fun same => missing (same ▸ List.mem_cons_self)
    exact linkDigest_deleteTag_ne apart progress

theorem OnlyShown.within {smaller : ObjectStore} (only : OnlyShown store)
    (within : Within smaller store) : OnlyShown smaller := by
  intro repo plain link member at_
  obtain ⟨bytes, found⟩ := Option.isSome_iff_exists.mp (AList.lookup_isSome.mpr member)
  exact only repo plain link (Table.mem_of_lookup (within link bytes found)) at_

theorem edited_deleteTagsForDigest (plain : PlainNames params) :
    Edited (fun link => if params.BelowTags link then .dropNamed digest else .keep) store
      (deleteTagsForDigest params digest store).1 where
  links link tagLink := by
    unfold deleteTagsForDigest
    by_cases below : params.BelowTags link
    · rw [if_pos below, linkDigest_deleteTags (tagLink.shown plain below)]
      by_cases named : linkDigest store link = some digest
      · obtain ⟨bytes, found, _⟩ := Option.map_eq_some_iff.mp named
        have listed : link ∈ list store params.tags := mem_list_tags.mpr ⟨Table.mem_of_lookup found, below⟩
        rw [if_pos ⟨listed, named⟩, LinkEdit.apply, if_pos named]
      · rw [if_neg fun both => named both.2, LinkEdit.apply, if_neg named]
    · rw [if_neg below]
      exact linkDigest_deleteTags_of_not_mem (fun listed => below (mem_list_tags.mp listed).2) (store, [])
  shown only := only.within (deleteTagsForDigest_spec params digest store).1

end Handlers

section Events

/-- Repository names that are path segments and that headers carry unchanged. -/
def Named (env : ReplicaEnv) (tenant project repo : String) : Prop :=
  PlainRepo tenant project repo ∧ env.carried tenant = some tenant ∧
    env.carried project = some project ∧ env.carried repo = some repo

instance (env : ReplicaEnv) (tenant project repo : String) : Decidable (Named env tenant project repo) :=
  inferInstanceAs (Decidable (_ ∧ _ ∧ _ ∧ _))

variable {env : ReplicaEnv} {event : QueuedEvent} {store : ObjectStore}

/-- What the queue may hold. -/
structure QueuedEvent.Sound (env : ReplicaEnv) (event : QueuedEvent) : Prop where
  plain : PlainNames event.params
  pushed : event.eventType = .manifestPush → event.params.Nameable event.reference ∧
    Text.trim event.digest = event.digest ∧
    env.carried event.reference = some event.reference ∧
    env.carried event.digest = some event.digest
  named : event.eventType ≠ .manifestDelete → Named env event.tenant event.project event.repo

theorem serve_push (sound : event.Sound env) (pushes : event.eventType = .manifestPush)
    (data : Bytes) (audit : Except String Unit) (store : ObjectStore) :
    (serve env event data audit store).2 = storeManifest event.params event.digest data store := by
  obtain ⟨_, _, reference, digest⟩ := sound.pushed pushes
  obtain ⟨_, tenant, project, repo⟩ := sound.named (by rw [pushes]; decide)
  simp only [serve, pushes, internalReplicateManifest, replicatedManifest, extractHeader,
    sentHeaders, tenant, project, repo, reference, digest]
  rfl

theorem serve_blob (sound : event.Sound env) (pushes : event.eventType = .blobPush)
    (data : Bytes) (audit : Except String Unit) (store : ObjectStore) :
    Edited (fun _ => .keep) store (serve env event data audit store).2 := by
  obtain ⟨plain, tenant, project, repo⟩ := sound.named (by rw [pushes]; decide)
  simp only [serve, pushes, internalReplicateBlob]
  cases announced : replicatedBlob (sentHeaders env event) with
  | error error => exact .refl store
  | ok pair =>
    obtain ⟨params, digest⟩ := pair
    simp only [replicatedBlob, extractHeader, sentHeaders, tenant, project, repo] at announced
    cases digested : env.carried event.digest <;> rw [digested] at announced <;> cases announced
    exact edited_insert_outside (outside_of_parts (parts_blobPath plain digest) (by decide)) data

theorem edited_serve (sound : event.Sound env)
    (sent : event.eventType = .manifestDelete → data = env.writeEvent event) (audit : Except String Unit)
    (store : ObjectStore) : Edited event.editOn store (serve env event data audit store).2 := by
  cases kind : event.eventType with
  | manifestPush =>
    rw [serve_push sound kind]
    obtain ⟨nameable, trimmed, _⟩ := sound.pushed kind
    refine (edited_storeManifest sound.plain nameable trimmed data).congr fun link => ?_
    simp only [QueuedEvent.editOn, kind]
    rfl
  | blobPush =>
    refine (serve_blob sound kind data audit store).congr fun link => ?_
    simp only [QueuedEvent.editOn, kind]
  | manifestDelete =>
    simp only [serve, kind, sent kind, internalReplicateDelete, env.parse_write]
    by_cases byDigest : Text.startsWith event.reference "sha256:" = true
    · simp only [if_pos byDigest]
      have removed : Edited (fun _ => .keep) store (store.erase (event.params.object event.digest)) :=
        edited_erase_outside (outside_object sound.plain event.digest)
      refine (removed.trans (edited_deleteTagsForDigest sound.plain)).congr fun link => ?_
      simp only [QueuedEvent.editOn, kind, if_pos byDigest]
    · simp only [if_neg byDigest]
      refine (edited_erase (event.params.tagLink event.reference)).congr fun link => ?_
      simp only [QueuedEvent.editOn, kind, if_neg byDigest]

/-- What attempts leave of a store: the event has made its edit, or has not. -/
structure Attempted (event : QueuedEvent) (before after : ObjectStore) : Prop where
  shown : OnlyShown before → OnlyShown after
  links : ∀ link, TagLink link → (event.editOn link).apply (linkDigest after link) =
    (event.editOn link).apply (linkDigest before link)

/-- Serving an event again makes no second edit. -/
theorem Attempted.serve (attempted : Attempted event store reached) (sound : event.Sound env)
    (sent : event.eventType = .manifestDelete → data = env.writeEvent event) (audit : Except String Unit) :
    Edited event.editOn store (serve env event data audit reached).2 := by
  have edited := edited_serve sound sent audit reached
  constructor
  · intro link tagLink
    rw [edited.links link tagLink, attempted.links link tagLink]
  · exact fun only => edited.shown (attempted.shown only)

theorem Edited.attempted (edited : Edited event.editOn store after) : Attempted event store after := by
  refine ⟨edited.shown, ?_⟩
  intro link tagLink
  rw [edited.links link tagLink, LinkEdit.apply_apply]

/-- A delivery that succeeds makes the edit once, however often it was attempted. -/
theorem edited_deliver (sound : event.Sound env)
    (sent : event.eventType = .manifestDelete → data = env.writeEvent event)
    (success : (deliver env event region data exchange store).1.isOk = true) :
    Edited event.editOn store (deliver env event region data exchange store).2 := by
  cases exchange with
  | refused => cases success
  | admitted attempt =>
    cases outcome : deliver env event region data (.admitted attempt) store with
    | mk result after =>
      rw [outcome] at success
      cases result with
      | error failure => cases success
      | ok done =>
        have failing : ∀ number reached failure left, Attempted event store reached →
            post env event data (attempt number) reached = (.error failure, left) →
            Attempted event store left := by
          intro number reached failure left attempted failed
          cases tried : attempt number with
          | answered audit | unanswered audit reason =>
            simp only [post, tried, Prod.mk.injEq] at failed
            rw [← failed.2]
            exact (attempted.serve sound sent audit).attempted
          | lost reason =>
            simp only [post, tried, Prod.mk.injEq] at failed
            rw [← failed.2]
            exact attempted
        obtain ⟨last, reached, attempted, answered⟩ :=
          RetryPolicy.execute_ok (Attempted event store) failing ⟨id, fun _ _ => rfl⟩ outcome
        cases tried : attempt last with
        | answered audit =>
          simp only [post, tried, Prod.mk.injEq] at answered
          rw [← answered.2]
          exact attempted.serve sound sent audit
        | unanswered audit reason | lost reason => simp [post, tried] at answered

end Events

end SpectonCr.Replication
