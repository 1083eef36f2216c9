import SpectonCr.Base.Run
import SpectonCr.VulnDb.Normalise

namespace SpectonCr.VulnDb

/-- What `by_index` gives for an entry, and reading it. -/
inductive ZipEntry where
  | broken (reason : String)
  | entry (name : String) (isFile : Bool) (contents : Except String ByteArray)

/-- Scores, and `serde_json::from_slice` on a record. -/
structure OsvLib (Score : Type) extends ScoreLib Score where
  decode : ByteArray → Except String OsvRecord

/-- Why an archive that was downloaded cannot be walked. -/
inductive ArchiveError where
  | io (reason : String)
  | zip (reason : String)

def ArchiveError.toScanError : ArchiveError → ScanError
  | .io reason => .io reason
  | .zip reason => .other ("osv zip open: " ++ reason)

/-- One call of `run` with what it meets: the answers to `HEAD` and `GET`, a failing etag query,
whether the cursor is written after the download, the archive, how its writes end, after how many
entries the process (or, with a reason, only the worker) dies, and a failing last cursor write. -/
structure OsvRun where
  now : Time
  head : Except String (Option String)
  stored : Option String
  get : Except ScanError (Except ArchiveError (List ZipEntry))
  touched : Bool
  writes : Nat → Bool
  death : Option (Nat × Option String)
  finished : Option String

inductive OsvOutcome where
  | skipped (stats : IngestStats)
  | completed (stats : IngestStats)
  | failed (error : ScanError)
  | died

/-- How far a call gets before it walks an archive. -/
inductive OsvStage where
  | failed (error : ScanError)
  | skips (etag : String)
  | fetched (etag : Option String) (archive : Except ArchiveError (List ZipEntry))

open OsvRun

section Ingest

variable {Score : Type} (lib : OsvLib Score)

/-- The record of an entry, when it is a readable JSON file. -/
def entryRecord : ZipEntry → Option OsvRecord
  | .broken _ => none
  | .entry name isFile contents =>
    if isFile && Text.endsWith name ".json" then
      contents.toOption.bind fun bytes => (lib.decode bytes).toOption
    else none

/-- One turn of the loop; `written` is whether the transaction of the advisory commits. -/
def ingestEntry (written : Bool) (state : VulnStore Score × IngestStats) (entry : ZipEntry) :
    VulnStore Score × IngestStats :=
  let (store, stats) := state
  let failed := { stats with errors := stats.errors + 1 }
  match entry with
  | .broken _ => (store, failed)
  | .entry name isFile contents =>
    if !isFile || !Text.endsWith name ".json" then (store, stats)
    else match contents with
      | .error _ => (store, failed)
      | .ok bytes => match lib.decode bytes with
        | .error _ => (store, failed)
        | .ok record => match normalise lib.toScoreLib record with
          | none => (store, { stats with skipped := stats.skipped + 1 })
          | some (vuln, ranges) =>
            if written then
              (store.writeAdvisory vuln ranges, { stats with advisories := stats.advisories + 1 })
            else (store, failed)

def ingestFromZip (writes : Nat → Bool) (store : VulnStore Score) (entries : List ZipEntry) :
    VulnStore Score × IngestStats :=
  entries.zipIdx.foldl (fun state entry => ingestEntry lib (writes entry.2) state entry.1) (store, .default)

/-- The download; what it stores on the way is written by `run`. -/
def OsvRun.fetch (call : OsvRun) (upstream : Option String) : OsvStage :=
  match call.get with
  | .error error => .failed error
  | .ok archive => .fetched upstream archive

def OsvRun.stage (store : VulnStore Score) (call : OsvRun) : OsvStage :=
  match call.head with
  | .error reason => .failed (.http reason)
  | .ok upstream => match call.stored with
    | some reason => .failed (.db reason)
    | none =>
      match upstream, store.storedEtag "osv" with
      | some etag, some stored => if etag = stored then .skips etag else call.fetch (some etag)
      | upstream, _ => call.fetch upstream

/-- `run`. The download stores the etag as soon as it has the bytes, and ignores an error there. -/
def OsvRun.run (store : VulnStore Score) (call : OsvRun) : OsvOutcome × VulnStore Score :=
  match call.stage store with
  | .failed error => (.failed error, store)
  | .skips etag => match call.finished with
    | some reason => (.failed (.db reason), store)
    | none => (.skipped .default, store.updateCursor "osv" (some etag) none .default none call.now)
  | .fetched upstream archive =>
    let store :=
      if upstream.isSome && call.touched then
        store.updateCursor "osv" upstream none .default none call.now
      else store
    match archive with
    | .error error => (.failed error.toScanError, store)
    | .ok entries => match call.death with
      | some (handled, worker) =>
        let (store, _) := ingestFromZip lib call.writes store (entries.take handled)
        match worker with
        | none => (.died, store)
        | some reason => (.failed (.other ("osv ingest join: " ++ reason)), store)
      | none =>
        let (store, stats) := ingestFromZip lib call.writes store entries
        match call.finished with
        | some reason => (.failed (.db reason), store)
        | none => (.completed stats, store.updateCursor "osv" upstream none stats none call.now)

/-- The walk goes through every entry of the archive. -/
def OsvRun.walks (call : OsvRun) : Except ArchiveError (List ZipEntry) → Bool
  | .error _ => false
  | .ok entries => call.death.all fun death => entries.length ≤ death.1

/-- The database, and the etags under which some call has walked a whole archive. -/
structure OsvHistory (Score : Type) where
  store : VulnStore Score
  ingested : List String

def OsvHistory.step (history : OsvHistory Score) (call : OsvRun) : OsvHistory Score where
  store := (call.run lib history.store).2
  ingested := match call.stage history.store with
    | .fetched (some etag) archive =>
      if call.walks archive then etag :: history.ingested else history.ingested
    | _ => history.ingested

/-- A call that skips does so under the etag of an archive that was walked. -/
def OsvHistory.SkipsIngested (history : OsvHistory Score) (call : OsvRun) : Prop :=
  ∀ etag, call.stage history.store = .skips etag → etag ∈ history.ingested

/-- A call that stores the etag of its download walks the archive, or an earlier one has under the
same etag. -/
def OsvHistory.MarksIngested (history : OsvHistory Score) (call : OsvRun) : Prop :=
  ∀ etag archive, call.stage history.store = .fetched (some etag) archive → call.touched = true →
    call.walks archive = true ∨ etag ∈ history.ingested

/-- The stored etag is of an archive that was walked. -/
def OsvHistory.Marked (history : OsvHistory Score) : Prop :=
  ∀ etag, history.store.storedEtag "osv" = some etag → etag ∈ history.ingested

variable {lib}

theorem ingestEntry_store (written : Bool) (state : VulnStore Score × IngestStats) (entry : ZipEntry) :
    (ingestEntry lib written state entry).1 =
      match (entryRecord lib entry).bind (normalise lib.toScoreLib) with
      | some (vuln, ranges) => if written then state.1.writeAdvisory vuln ranges else state.1
      | none => state.1 := by
  obtain ⟨store, stats⟩ := state
  cases entry with
  | broken reason => rfl
  | entry name isFile contents =>
    simp only [ingestEntry, entryRecord]
    cases isFile with
    | false => rfl
    | true =>
      cases Text.endsWith name ".json" with
      | false => rfl
      | true =>
        cases contents with
        | error reason => rfl
        | ok bytes =>
          simp only [Except.toOption, Option.bind_some]
          cases lib.decode bytes with
          | error reason => rfl
          | ok record =>
            cases usable : normalise lib.toScoreLib record with
            | none => simp [usable]
            | some row => cases written <;> simp [usable]

theorem storedEtag_ingestFromZip (writes : Nat → Bool) (store : VulnStore Score)
    (entries : List ZipEntry) (source : String) :
    (ingestFromZip lib writes store entries).1.storedEtag source = store.storedEtag source := by
  have step : ∀ (numbered : List (ZipEntry × Nat)) (state : VulnStore Score × IngestStats),
      (numbered.foldl (fun state entry => ingestEntry lib (writes entry.2) state entry.1)
        state).1.storedEtag source = state.1.storedEtag source := by
    intro numbered
    induction numbered with
    | nil => exact fun _ => rfl
    | cons entry rest ih =>
      intro state
      rw [List.foldl_cons, ih, ingestEntry_store]
      split
      · split
        · rw [VulnStore.storedEtag_writeAdvisory]
        · rfl
      · rfl
  exact step entries.zipIdx (store, .default)

variable (call : OsvRun)

theorem OsvRun.fetch_ne_skips (upstream : Option String) (etag : String) :
    call.fetch upstream ≠ .skips etag := by
  unfold fetch
  cases call.get <;> exact nofun

theorem OsvRun.stored_of_skips {store : VulnStore Score} {call : OsvRun} {etag : String}
    (skips : call.stage store = .skips etag) : store.storedEtag "osv" = some etag := by
  unfold stage at skips
  split at skips
  · cases skips
  split at skips
  · cases skips
  split at skips
  · rename_i found _
    split at skips
    · rename_i same
      cases skips
      rw [found, same]
    · exact absurd skips (call.fetch_ne_skips _ _)
  · exact absurd skips (call.fetch_ne_skips _ _)

/-- The call that only asks for the etag. -/
def OsvRun.asking (etag : String) : OsvRun where
  now := 0
  head := .ok (some etag)
  stored := none
  get := .error (.http "timed out")
  touched := false
  writes := fun _ => false
  death := none
  finished := none

theorem OsvRun.stage_asking {store : VulnStore Score} {etag : String}
    (stored : store.storedEtag "osv" = some etag) : (asking etag).stage store = .skips etag := by
  simp [stage, asking, stored]

theorem OsvHistory.marked_iff (history : OsvHistory Score) :
    history.Marked ↔ ∀ next, history.SkipsIngested next := by
  constructor
  · intro marked next etag skips
    exact marked etag (stored_of_skips skips)
  · intro safe etag stored
    exact safe (asking etag) etag (stage_asking stored)

/-- The etag that a call leaves: that of its download if it is stored at either point. -/
theorem OsvRun.storedEtag_run (store : VulnStore Score) (call : OsvRun) :
    (call.run lib store).2.storedEtag "osv" =
      match call.stage store with
      | .failed _ | .skips _ => store.storedEtag "osv"
      | .fetched upstream archive =>
        if (archive.toOption.isSome && call.death.isNone && call.finished.isNone) ||
            (upstream.isSome && call.touched) then upstream
        else store.storedEtag "osv" := by
  unfold run
  cases stage : call.stage store with
  | failed error => rfl
  | skips etag =>
    simp only
    cases call.finished with
    | some reason => rfl
    | none => rw [VulnStore.storedEtag_updateCursor, stored_of_skips stage]
  | fetched upstream archive =>
    have touched : (if upstream.isSome && call.touched then
        store.updateCursor "osv" upstream none .default none call.now
        else store).storedEtag "osv" =
        if upstream.isSome && call.touched then upstream else store.storedEtag "osv" := by
      split
      · rw [VulnStore.storedEtag_updateCursor]
      · rfl
    cases archive with
    | error error => simpa [Except.toOption] using touched
    | ok entries =>
      cases call.death with
      | some death =>
        obtain ⟨handled, worker⟩ := death
        cases worker <;> simpa [Except.toOption, storedEtag_ingestFromZip] using touched
      | none =>
        cases call.finished with
        | some reason => simpa [Except.toOption, storedEtag_ingestFromZip] using touched
        | none => simp [Except.toOption]

theorem OsvRun.unfinished_of_walks (walked : call.walks archive = false) :
    (archive.toOption.isSome && call.death.isNone && call.finished.isNone) = false := by
  cases archive with
  | error error => rfl
  | ok entries =>
    cases death : call.death with
    | none => simp [walks, death] at walked
    | some end_ => simp

/-- A call keeps the mark right exactly when it stores the etag of what is walked. -/
theorem OsvHistory.marked_step_iff {history : OsvHistory Score} (marked : history.Marked)
    (call : OsvRun) : (history.step lib call).Marked ↔ history.MarksIngested call := by
  unfold OsvHistory.Marked OsvHistory.MarksIngested OsvHistory.step
  simp only [storedEtag_run]
  cases stage : call.stage history.store with
  | failed error | skips etag =>
    simp only
    exact iff_of_true marked nofun
  | fetched upstream archive =>
    cases upstream with
    | none =>
      refine iff_of_true ?_ nofun
      intro etag stored
      simp only [Option.isSome_none, Bool.false_and, Bool.or_false] at stored
      split at stored
      · cases stored
      · exact marked etag stored
    | some etag =>
      simp only
      cases walked : call.walks archive with
      | true =>
        refine iff_of_true ?_ ?_
        · intro other stored
          rw [if_pos rfl]
          split at stored
          · cases stored
            exact List.mem_cons_self
          · exact List.mem_cons_of_mem _ (marked other stored)
        · rintro other found ⟨⟩ _
          exact .inl walked
      | false =>
        rw [call.unfinished_of_walks walked]
        simp only [Option.isSome_some, Bool.true_and, Bool.false_or, Bool.false_eq_true, if_false]
        cases touched : call.touched with
        | false => exact iff_of_true marked nofun
        | true =>
          simp only [if_true, Option.some.injEq, forall_eq', OsvStage.fetched.injEq, and_imp]
          constructor
          · rintro ingested other found rfl rfl _
            exact .inr ingested
          · intro guarded
            exact (guarded etag archive rfl rfl trivial).resolve_left (by simp [walked])

end Ingest

/-- After every call a skip is under the etag of a walked archive, exactly when no call stores the
etag of an archive that is not walked. -/
theorem skips_ingested_iff {Score : Type} (lib : OsvLib Score) (store : VulnStore Score)
    (fresh : store.storedEtag "osv" = none) (calls : List OsvRun) :
    Run.Along (OsvHistory.step lib)
        (fun history call => ∀ next, (history.step lib call).SkipsIngested next) ⟨store, []⟩ calls ↔
      Run.Along (OsvHistory.step lib) OsvHistory.MarksIngested ⟨store, []⟩ calls := by
  have initial : (⟨store, []⟩ : OsvHistory Score).Marked := by
    intro etag stored
    cases fresh.symm.trans stored
  rw [← Run.along_invariant_iff OsvHistory.Marked
    (fun history call marked => OsvHistory.marked_step_iff marked call) initial]
  exact Run.along_congr fun history call => (OsvHistory.marked_iff _).symm

/-- Scores and documents that cannot be read. -/
def blankOsvLib : OsvLib Nat where
  parse := fun _ => none
  cvss3Base := fun _ => none
  atLeast := fun score bound => bound ≤ score
  positive := fun score => 0 < score
  decode := fun _ => .error "EOF while parsing"

/-- A download under the etag `v1` that is stored at once. -/
def OsvRun.downloading (archive : Except ArchiveError (List ZipEntry)) : OsvRun where
  now := 1
  head := .ok (some "v1")
  stored := none
  get := .ok archive
  touched := true
  writes := fun _ => true
  death := none
  finished := none

theorem walked_download_marked : Run.Along (OsvHistory.step blankOsvLib)
      (fun history call => ∀ next, (history.step blankOsvLib call).SkipsIngested next)
      ⟨.empty, []⟩ [OsvRun.downloading (.ok [])] := by
  refine (skips_ingested_iff blankOsvLib .empty rfl _).mpr ⟨?_, trivial⟩
  intro etag archive stage _
  cases stage
  exact .inl rfl

/-- An archive that does not open is skipped from then on. -/
theorem broken_download_skipped : ¬ ((⟨.empty, []⟩ : OsvHistory Nat).step blankOsvLib
        (OsvRun.downloading (.error (.zip "invalid Zip archive")))).SkipsIngested
      (OsvRun.asking "v1") := by
  intro safe
  cases safe "v1" rfl

section Feeds

variable {Score : Type} (lib : OsvLib Score)

/-- A feed whose writes all commit. -/
def ingestFeed (store : VulnStore Score) (feed : List ZipEntry) : VulnStore Score :=
  (ingestFromZip lib (fun _ => true) store feed).1

def feedRecords (feed : List ZipEntry) : List OsvRecord := feed.filterMap (entryRecord lib)

/-- The ranges that a record of the id brings, if it can be used. -/
def rangesFor (id : String) (record : OsvRecord) : Option (List AffectedRangeRow) :=
  if record.id = id then (normalise lib.toScoreLib record).map Prod.snd else none

variable {lib}

variable (store : VulnStore Score)

theorem ingestFeed_eq (feed : List ZipEntry) :
    ingestFeed lib store feed = ((feedRecords lib feed).filterMap (normalise lib.toScoreLib)).foldl
        (fun store row => store.writeAdvisory row.1 row.2) store := by
  have loop : ∀ (numbered : List (ZipEntry × Nat)) (state : VulnStore Score × IngestStats),
      (numbered.foldl (fun state entry => ingestEntry lib true state entry.1) state).1 =
        ((numbered.map Prod.fst).filterMap fun entry =>
          (entryRecord lib entry).bind (normalise lib.toScoreLib)).foldl
            (fun store row => store.writeAdvisory row.1 row.2) state.1 := by
    intro numbered
    induction numbered with
    | nil => exact fun _ => rfl
    | cons entry rest ih =>
      intro state
      rw [List.foldl_cons, ih, ingestEntry_store, List.map_cons, List.filterMap_cons]
      cases (entryRecord lib entry.1).bind (normalise lib.toScoreLib) with
      | none | some row => rfl
  rw [ingestFeed, ingestFromZip, loop, List.zipIdx_map_fst, feedRecords, List.filterMap_filterMap]

theorem rangesOf_ingestFeed (feed : List ZipEntry) (id : String) : (ingestFeed lib store feed).rangesOf id =
      ((feedRecords lib feed).filterMap (rangesFor lib id)).getLast?.getD (store.rangesOf id) := by
  rw [ingestFeed_eq]
  induction feedRecords lib feed generalizing store with
  | nil => rfl
  | cons record rest ih =>
    cases usable : normalise lib.toScoreLib record with
    | none =>
      have unused : rangesFor lib id record = none := by simp [rangesFor, usable]
      rw [List.filterMap_cons_none usable, List.filterMap_cons_none unused, ih]
    | some row =>
      obtain ⟨vuln, ranges⟩ := row
      have same := (normalise_some usable).1
      rw [List.filterMap_cons_some usable, List.foldl_cons, ih, VulnStore.rangesOf_writeAdvisory, same]
      by_cases here : record.id = id
      · have used : rangesFor lib id record = some ranges := by simp [rangesFor, usable, here]
        rw [if_pos here, List.filterMap_cons_some used, List.getLast?_cons, Option.getD_some]
      · have unused : rangesFor lib id record = none := by simp [rangesFor, here]
        rw [if_neg here, List.filterMap_cons_none unused]

theorem rangesOf_ingestFeeds (feeds : List (List ZipEntry)) (id : String) :
    (feeds.foldl (ingestFeed lib) store).rangesOf id =
      ((feeds.flatMap (feedRecords lib)).filterMap (rangesFor lib id)).getLast?.getD (store.rangesOf id) := by
  induction feeds generalizing store with
  | nil => rfl
  | cons feed rest ih =>
    rw [List.foldl_cons, ih, rangesOf_ingestFeed, List.flatMap_cons, List.filterMap_append,
      List.getLast?_append]
    cases ((rest.flatMap (feedRecords lib)).filterMap (rangesFor lib id)).getLast? <;> rfl

theorem rangesFor_some {id : String} {record : OsvRecord} {ranges : List AffectedRangeRow}
    (used : rangesFor lib id record = some ranges) :
    record.id = id ∧ (normalise lib.toScoreLib record).isSome ∧ ranges ≠ [] := by
  unfold rangesFor at used
  split at used
  · rename_i same
    obtain ⟨row, usable, rfl⟩ := Option.map_eq_some_iff.mp used
    exact ⟨same, by rw [usable]; rfl, (normalise_some usable).2.2⟩
  · cases used

theorem rangesFor_none_iff {id : String} {record : OsvRecord} :
    rangesFor lib id record = none ↔ (record.id = id → normalise lib.toScoreLib record = none) := by
  unfold rangesFor
  split
  · rename_i same
    simp [same]
  · rename_i other
    simp [other]

end Feeds

/-- The ranges of an id are those of the last feed alone exactly when that feed has a usable record
of the id, or no earlier feed has one. -/
theorem ranges_of_last_feed_iff {Score : Type} (lib : OsvLib Score) (earlier : List (List ZipEntry))
    (last : List ZipEntry) (id : String) :
    ((earlier ++ [last]).foldl (ingestFeed lib) .empty).rangesOf id =
        (ingestFeed lib .empty last).rangesOf id ↔
      (∃ record ∈ feedRecords lib last, record.id = id ∧ (normalise lib.toScoreLib record).isSome) ∨
      ∀ feed ∈ earlier, ∀ record ∈ feedRecords lib feed, record.id = id →
        normalise lib.toScoreLib record = none := by
  rw [List.foldl_append, List.foldl_cons, List.foldl_nil, rangesOf_ingestFeed,
    rangesOf_ingestFeed, rangesOf_ingestFeeds]
  have blank : (VulnStore.empty : VulnStore Score).rangesOf id = [] := rfl
  rw [blank]
  cases newest : ((feedRecords lib last).filterMap (rangesFor lib id)).getLast? with
  | some ranges =>
    refine iff_of_true rfl (.inl ?_)
    obtain ⟨record, member, used⟩ := List.mem_filterMap.mp (List.mem_of_getLast? newest)
    obtain ⟨same, usable, _⟩ := rangesFor_some used
    exact ⟨record, member, same, usable⟩
  | none =>
    have unused : ∀ record ∈ feedRecords lib last, rangesFor lib id record = none :=
      List.filterMap_eq_nil_iff.mp (List.getLast?_eq_none_iff.mp newest)
    have noRecord : ¬ ∃ record ∈ feedRecords lib last, record.id = id ∧
        (normalise lib.toScoreLib record).isSome := by
      rintro ⟨record, member, same, usable⟩
      rw [rangesFor_none_iff.mp (unused record member) same] at usable
      cases usable
    rw [or_iff_right noRecord, Option.getD_none, Option.getD_none]
    cases old : ((earlier.flatMap (feedRecords lib)).filterMap (rangesFor lib id)).getLast? with
    | some ranges =>
      obtain ⟨record, member, used⟩ := List.mem_filterMap.mp (List.mem_of_getLast? old)
      obtain ⟨feed, listed, present⟩ := List.mem_flatMap.mp member
      obtain ⟨same, usable, nonempty⟩ := rangesFor_some used
      refine iff_of_false nonempty ?_
      intro none
      rw [none feed listed record present same] at usable
      cases usable
    | none =>
      refine iff_of_true rfl ?_
      intro feed listed record present
      have unusedBefore := List.filterMap_eq_nil_iff.mp (List.getLast?_eq_none_iff.mp old)
      exact rangesFor_none_iff.mp (unusedBefore record (List.mem_flatMap.mpr ⟨feed, listed, present⟩))

/-- An advisory for every version of a package, published or withdrawn. -/
def advisory (withdrawn : Option Time) : OsvRecord where
  id := "CVE-1"
  aliases := []
  summary := none
  details := none
  published := none
  modified := none
  withdrawn
  severity := []
  affected := [⟨⟨"x", "npm", none⟩, [⟨"SEMVER", [⟨some "0", none, none, none⟩]⟩], []⟩]
  references := []

/-- Documents of one byte: zero is the advisory, any other the withdrawn one. -/
def byteOsvLib : OsvLib Nat :=
  { blankOsvLib with
    decode := fun bytes => .ok (advisory (if bytes.toList = [0] then none else some 1)) }

def feedOf (byte : UInt8) : List ZipEntry := [.entry "CVE-1.json" true (.ok ⟨#[byte]⟩)]

/-- The range of an advisory stays after the feed that withdraws it. -/
theorem withdrawn_range_kept :
    ((([feedOf 0] ++ [feedOf 1]).foldl (ingestFeed byteOsvLib) .empty).rangesOf "CVE-1" =
        [⟨"npm", "x", some "0", none, none, none⟩]) ∧
      (feedRecords byteOsvLib (feedOf 1)).map OsvRecord.id = ["CVE-1"] ∧
      (ingestFeed byteOsvLib .empty (feedOf 1)).rangesOf "CVE-1" = [] := by
  decide +kernel

end SpectonCr.VulnDb
