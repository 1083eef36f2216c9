import SpectonCr.Base.DeltaFeed
import SpectonCr.VulnDb.Sources

namespace SpectonCr.VulnDb

open DeltaFeed

/-- The state of a run; `written` has the rows whose write committed. -/
structure Progress (Score : Type) where
  store : VulnStore Score
  maxModified : Time
  stats : IngestStats
  written : List (VulnerabilityRow Score)

/-- What a run leaves, and how it ended. -/
structure RunResult (Score : Type) where
  store : VulnStore Score
  written : List (VulnerabilityRow Score)
  ending : Ending ScanError

section Items

variable {Score Item : Type}

/-- A record as its normaliser reads it. -/
abbrev Reading (Score : Type) :=
  Except Panicked (Option (VulnerabilityRow Score × Option (List AffectedRangeRow)))

def Progress.receive (progress : Progress Score) (stored : Bool) : Reading Score → Progress Score × Bool
  | .error _ => (progress, false)
  | .ok none =>
    ({ progress with stats := { progress.stats with skipped := progress.stats.skipped + 1 } }, true)
  | .ok (some (row, ranges)) =>
    let maxModified := match row.modifiedAt with
      | none => progress.maxModified
      | some time => if progress.maxModified < time then time else progress.maxModified
    if stored then
      ({ store := progress.store.ingest row ranges
         maxModified
         stats := { progress.stats with advisories := progress.stats.advisories + 1 }
         written := progress.written ++ [row] }, true)
    else
      ({ progress with
         maxModified
         stats := { progress.stats with errors := progress.stats.errors + 1 } }, true)

/-- The body of both loops; `writes` says which writes commit. -/
def handleRecord (read : Item → Reading Score) (writes : Nat → Bool) (number : Nat)
    (progress : Progress Score) (item : Item) : Progress Score × Bool :=
  progress.receive (writes number) (read item)

def Reading.row : Reading Score → Option (VulnerabilityRow Score)
  | .ok (some (row, _)) => some row
  | _ => none

/-- The cursor that a run stores once its loop has ended. -/
def closeRun (source : String) (now : Time) (progress : Progress Score) : Ending ScanError → RunResult Score
  | .finished =>
    ⟨progress.store.updateCursor source none (some progress.maxModified) progress.stats none now,
      progress.written, .finished⟩
  | .failed error =>
    ⟨progress.store.updateCursor source none (some progress.maxModified) progress.stats
      (some error.toString) now, progress.written, .failed error⟩
  | .stopped => ⟨progress.store, progress.written, .stopped⟩

/-- After records whose writes all committed, the progress has exactly their rows. -/
structure Progress.Grown (before after : Progress Score) (source : String)
    (received : List (VulnerabilityRow Score)) : Prop where
  maxModified : after.maxModified = advance VulnerabilityRow.modifiedAt before.maxModified received
  written : after.written = before.written ++ received
  cursor : after.store.storedLastModified source = before.store.storedLastModified source

variable (progress : Progress Score) (source : String)

theorem Progress.Grown.refl : progress.Grown progress source [] := ⟨rfl, (List.append_nil _).symm, rfl⟩

theorem Progress.Grown.trans {one two three : Progress Score} {source : String}
    {first second : List (VulnerabilityRow Score)} (before : one.Grown two source first)
    (after : two.Grown three source second) : one.Grown three source (first ++ second) := by
  refine ⟨?_, ?_, after.cursor.trans before.cursor⟩
  · rw [after.maxModified, before.maxModified, advance_append]
  · rw [after.written, before.written, List.append_assoc]

theorem storedLastModified_ingest (store : VulnStore Score) (row : VulnerabilityRow Score)
    (ranges : Option (List AffectedRangeRow)) (source : String) :
    (store.ingest row ranges).storedLastModified source = store.storedLastModified source := by
  cases ranges <;> rfl

theorem Progress.receive_grown (complete : (progress.receive true reading).2 = true) :
    progress.Grown (progress.receive true reading).1 source reading.row.toList := by
  cases reading with
  | error panic => cases complete
  | ok read =>
    cases read with
    | none => exact ⟨rfl, (List.append_nil _).symm, rfl⟩
    | some entry =>
      obtain ⟨row, ranges⟩ := entry
      refine ⟨?_, rfl, storedLastModified_ingest _ _ _ _⟩
      simp only [receive, if_true, advance, Reading.row, Option.toList_some, List.foldl_cons, List.foldl_nil]
      cases row.modifiedAt with
      | none => rfl
      | some time =>
        by_cases later : progress.maxModified < time
        · simp [later, max_eq_right later.le]
        · simp [later, max_eq_left (not_lt.mp later)]

theorem handleAll_grown {read : Item → Reading Score} {writes : Nat → Bool}
    (stored : ∀ number, writes number = true) {number : Nat} {progress : Progress Score} {items : List Item}
    (source : String) (complete : (handleAll (handleRecord read writes) number progress items).2 = true) :
    progress.Grown (handleAll (handleRecord read writes) number progress items).1 source
      (items.filterMap fun item => (read item).row) := by
  induction items generalizing number progress with
  | nil => exact .refl progress source
  | cons item rest ih =>
    have first : handleRecord read writes number progress item = progress.receive true (read item) := by
      rw [handleRecord, stored]
    have rows : ((item :: rest).filterMap fun item => (read item).row) =
        (read item).row.toList ++ rest.filterMap fun item => (read item).row := by
      rw [List.filterMap_cons]
      cases (read item).row <;> rfl
    rw [handleAll, first] at complete ⊢
    have here := progress.receive_grown source (show (progress.receive true (read item)).2 = true by
        cases received : progress.receive true (read item) with
        | mk after more =>
          rw [received] at complete
          cases more with
          | false => cases complete
          | true => rfl)
    cases received : progress.receive true (read item) with
    | mk after more =>
      rw [received] at complete here
      cases more with
      | false => cases complete
      | true =>
        rw [rows]
        exact here.trans (ih complete)

theorem handleAll_complete {read : Item → Reading Score} {writes : Nat → Bool} {number : Nat}
    {progress : Progress Score} {items : List Item} (reads : ∀ item ∈ items, ∃ row, read item = .ok row) :
    (handleAll (handleRecord read writes) number progress items).2 = true := by
  induction items generalizing number progress with
  | nil => rfl
  | cons item rest ih =>
    obtain ⟨row, reading⟩ := reads item List.mem_cons_self
    have goes : (handleRecord read writes number progress item).2 = true := by
      rw [handleRecord, reading]
      cases row with
      | none => rfl
      | some entry =>
        simp only [Progress.receive]
        split <;> rfl
    rw [handleAll]
    cases received : handleRecord read writes number progress item with
    | mk after more =>
      rw [received] at goes
      obtain rfl : more = true := goes
      exact ih fun other member => reads other (List.mem_cons_of_mem item member)

end Items

section Step

variable {Score Item : Type}

/-- The rows that a catalogue normalises to. -/
def catalogueRows (read : Item → Reading Score) (catalogue : List Item) : List (VulnerabilityRow Score) :=
  catalogue.filterMap fun item => (read item).row

/-- The database, and the rows that were written. -/
structure DeltaHistory (Score : Type) where
  store : VulnStore Score
  written : List (VulnerabilityRow Score)

/-- Every row of the catalogue between the first start and the stored cursor was written. -/
def DeltaHistory.LosesNothing (history : DeltaHistory Score) (source : String) (first : Time)
    (rows : List (VulnerabilityRow Score)) : Prop :=
  ∀ cursor, history.store.storedLastModified source = some cursor →
    Covered VulnerabilityRow.modifiedAt rows first cursor history.written

/-- Received rows fill the catalogue from the mark on, up to the latest of them. -/
def Fills (rows received : List (VulnerabilityRow Score)) (mark : Time) : Prop :=
  ∀ row ∈ rows, ∀ time, row.modifiedAt = some time → mark ≤ time →
    row ∈ received ∨ ∀ other ∈ received, ∀ t, other.modifiedAt = some t → t ≤ time

theorem fills_nil (rows : List (VulnerabilityRow Score)) (mark : Time) : Fills rows [] mark := by
  intro row _ time _ _
  right
  intro other member
  cases member

/-- A run that stores its cursor after rows which fill the catalogue loses nothing. -/
theorem closeRun_covered (covered : Covered VulnerabilityRow.modifiedAt rows first mark written)
    (grown : Progress.Grown ⟨store, mark, .default, []⟩ progress source received)
    (fills : Fills rows received mark) (closes : ending ≠ .stopped) :
    ∃ cursor, (closeRun source now progress ending).store.storedLastModified source = some cursor ∧
      Covered VulnerabilityRow.modifiedAt rows first cursor
        (written ++ (closeRun source now progress ending).written) := by
  have kept := covered.advance fills
  have received_eq : progress.written = received := grown.written.trans (List.nil_append _)
  refine ⟨progress.maxModified, ?_, ?_⟩
  · cases ending with
    | finished | failed error => simp [closeRun]
    | stopped => exact absurd rfl closes
  · rw [grown.maxModified]
    cases ending with
    | finished | failed error => simpa only [closeRun, received_eq] using kept
    | stopped => exact absurd rfl closes

section Runs

variable {Call : Type} (source : String) (bootstrap : Call → Time)

/-- Where the first of some runs starts. -/
def firstStart (store : VulnStore Score) : List Call → Time
  | [] => (store.storedLastModified source).getD 0
  | call :: _ => (store.storedLastModified source).getD (bootstrap call)

variable {source bootstrap} {step : DeltaHistory Score → Call → DeltaHistory Score}
  {rows : List (VulnerabilityRow Score)}

/-- A run takes what is written up to its start to what is written up to the cursor it stores. -/
def Moves (source : String) (bootstrap : Call → Time)
    (step : DeltaHistory Score → Call → DeltaHistory Score) (rows : List (VulnerabilityRow Score))
    (history : DeltaHistory Score) (call : Call) : Prop :=
  ∀ first, Covered VulnerabilityRow.modifiedAt rows first
      ((history.store.storedLastModified source).getD (bootstrap call)) history.written →
    ∃ cursor, (step history call).store.storedLastModified source = some cursor ∧
      Covered VulnerabilityRow.modifiedAt rows first cursor (step history call).written

theorem covered_after
    (moves : ∀ call ∈ calls, ∀ history : DeltaHistory Score, (history.store.storedLastModified
      source).isSome → Moves source bootstrap step rows history call)
    (stored : history.store.storedLastModified source = some cursor)
    (covered : Covered VulnerabilityRow.modifiedAt rows first cursor history.written) :
    (Run.after step history calls).LosesNothing source first rows := by
  induction calls generalizing history cursor with
  | nil =>
    intro mark found
    cases stored.symm.trans found
    exact covered
  | cons call rest ih =>
    have start : (history.store.storedLastModified source).getD (bootstrap call) = cursor := by
      rw [stored, Option.getD_some]
    rw [← start] at covered
    obtain ⟨next, moved, kept⟩ := moves call List.mem_cons_self history (stored ▸ rfl) first covered
    exact ih (fun other member => moves other (List.mem_cons_of_mem call member)) moved kept

theorem losesNothing_after {calls : List Call} {store : VulnStore Score}
    (begins : ∀ call ∈ calls, Moves source bootstrap step rows ⟨store, []⟩ call)
    (moves : ∀ call ∈ calls, ∀ history : DeltaHistory Score,
      (history.store.storedLastModified source).isSome → Moves source bootstrap step rows history call) :
    (Run.after step ⟨store, []⟩ calls).LosesNothing source (firstStart source bootstrap store calls)
      rows := by
  have vacuous : ∀ start : Time, Covered VulnerabilityRow.modifiedAt rows start start [] :=
    fun start row _ time _ after before => absurd before (not_lt.mpr after)
  cases calls with
  | nil =>
    intro cursor stored
    have first : firstStart source bootstrap store [] = cursor := by
      rw [firstStart]
      exact (congrArg (Option.getD · 0) stored).trans Option.getD_some
    rw [first]
    exact vacuous cursor
  | cons call rest =>
    obtain ⟨cursor, moved, kept⟩ := begins call List.mem_cons_self _ (vacuous _)
    show (Run.after step (step ⟨store, []⟩ call) rest).LosesNothing source _ rows
    exact covered_after (fun other member => moves other (List.mem_cons_of_mem call member)) moved kept

end Runs

end Step

section Nvd

variable {Score : Type} (scores : ScoreLib Score)

structure NvdApiResponse (Score : Type) where
  totalResults : Nat
  vulnerabilities : List (NvdCve Score)

structure NvdIngester where
  bootstrapWindowDays : Int

def NvdIngester.new (bootstrapWindowDays : Int) : NvdIngester := ⟨max bootstrapWindowDays 1⟩

/-- `chrono::Duration::days`. -/
def days (count : Int) : Int := count * 86400000000000

def maxWindowDays : Int := 119

/-- `format_nvd_ts` has whole milliseconds. -/
def nvdTimestamp (time : Time) : Time := time / 1000000 * 1000000

/-- A call of `run` with what it meets: for each window the order in which the API lists it, the
page requests that fail, the sizes of the pages (one less) and the row writes that commit. -/
structure NvdCall (Score : Type) where
  now : Time
  order : Time → Time → List (NvdCve Score)
  fails : Time → Time → Nat → Option ScanError
  size : Time → Time → Nat → Nat
  writes : Time → Nat → Bool

def NvdCall.fetchPage (call : NvdCall Score) (first last : Time) (startIndex : Nat) :
    Except ScanError (NvdApiResponse Score) :=
  match call.fails first last startIndex with
  | some error => .error error
  | none => .ok ⟨(call.order first last).length,
      ((call.order first last).drop startIndex).take (call.size first last startIndex + 1)⟩

/-- A page, and the index of the next one unless it is the last. -/
def nextPage (fetchPage : Nat → Except ScanError (NvdApiResponse Score)) (startIndex : Nat) :
    Except ScanError (List (NvdCve Score) × Option Nat) :=
  (fetchPage startIndex).map fun page =>
    let next := startIndex + page.vulnerabilities.length
    (page.vulnerabilities,
      if page.vulnerabilities.length = 0 ∨ page.totalResults ≤ next then none else some next)

def readNvd (cve : NvdCve Score) : Reading Score :=
  (normaliseNvd scores cve).map fun row => row.map fun row => (row, none)

/-- The windows of the outer loop; the count is enough for `now` to be reached. -/
def windows : Nat → Time → Time → List (Time × Time)
  | 0, _, _ => []
  | count + 1, cursor, now =>
    if cursor < now then
      let windowEnd := min (cursor + days maxWindowDays) now
      (cursor, windowEnd) :: windows count windowEnd now
    else []

def ingestWindow (call : NvdCall Score) (window : Time × Time) (progress : Progress Score) :
    Progress Score × Ending ScanError :=
  walk (nextPage (call.fetchPage window.1 window.2)) (handleRecord (readNvd scores) (call.writes window.1))
    ((call.order window.1 window.2).length + 1) 0 0 progress

def ingestWindows (call : NvdCall Score) :
    List (Time × Time) → Progress Score → Progress Score × Ending ScanError
  | [], progress => (progress, .finished)
  | window :: rest, progress =>
    match ingestWindow scores call window progress with
    | (progress, .finished) => ingestWindows call rest progress
    | (progress, ending) => (progress, ending)

def NvdIngester.start (ingester : NvdIngester) (store : VulnStore Score) (now : Time) : Time :=
  (store.storedLastModified "nvd").getD (now - days ingester.bootstrapWindowDays)

def NvdIngester.run (ingester : NvdIngester) (store : VulnStore Score) (call : NvdCall Score) :
    RunResult Score :=
  let start := ingester.start store call.now
  let count := ((call.now - start) / days maxWindowDays).toNat + 1
  let (progress, ending) := ingestWindows scores call (windows count start call.now)
    ⟨store, start, .default, []⟩
  closeRun "nvd" call.now progress ending

def inWindow (window : Time × Time) (cve : NvdCve Score) : Bool :=
  cve.lastModified.any fun time => nvdTimestamp window.1 ≤ time && time ≤ nvdTimestamp window.2

/-- The API lists the records of each window, in any order. -/
def NvdCall.Serves (call : NvdCall Score) (catalogue : List (NvdCve Score)) : Prop :=
  ∀ first last, (call.order first last).Perm (catalogue.filter (inWindow (first, last)))

/-- Every write commits, and a page request fails only where no record of the window listed before
it is later than one that is still to come. -/
structure NvdCall.Orderly (call : NvdCall Score) : Prop where
  stored : ∀ first number, call.writes first number = true
  sorted : ∀ first last index error, call.fails first last index = some error →
    ∀ one ∈ (call.order first last).take index, ∀ two ∈ (call.order first last).drop index,
      ∀ s t, one.lastModified = some s → two.lastModified = some t → s ≤ t

variable {scores}

variable {call : NvdCall Score} {catalogue : List (NvdCve Score)}

theorem serves_nextPage (call : NvdCall Score) (first last : Time) :
    DeltaFeed.Serves (nextPage (call.fetchPage first last)) (call.order first last) id := by
  intro index items next fetched
  unfold nextPage NvdCall.fetchPage at fetched
  cases failed : call.fails first last index with
  | some error =>
    rw [failed] at fetched
    cases fetched
  | none =>
    rw [failed] at fetched
    obtain ⟨rfl, rfl⟩ := Prod.mk.inj (Except.ok.inj fetched)
    refine ⟨by simp [List.take_eq_take_iff], ?_⟩
    have length := List.length_take
      (i := call.size first last index + 1) (l := (call.order first last).drop index)
    rw [List.length_drop] at length
    simp only [id]
    split
    · rename_i final
      split at final
      · omega
      · cases final
    · rename_i later final
      split at final
      · cases final
      rename_i more
      obtain rfl := Option.some.inj final
      refine ⟨rfl, ?_⟩
      intro none
      exact more (.inl (List.length_eq_zero_iff.mpr none))

theorem fails_of_nextPage {first last : Time} {index : Nat}
    {error : ScanError} (failed : nextPage (call.fetchPage first last) index = .error error) :
    call.fails first last index = some error := by
  unfold nextPage NvdCall.fetchPage at failed
  cases fails : call.fails first last index with
  | none =>
    rw [fails] at failed
    cases failed
  | some found =>
    rw [fails] at failed
    exact congrArg some (Except.error.inj failed)

theorem readNvd_row (read : (readNvd scores cve).row = some row) : row.modifiedAt = cve.lastModified := by
  unfold readNvd at read
  cases normalised : normaliseNvd scores cve with
  | error panic =>
    rw [normalised] at read
    cases read
  | ok found =>
    rw [normalised] at read
    cases found with
    | none => cases read
    | some vuln =>
      cases read
      exact (normaliseNvd_some normalised).2.1

theorem mem_order (serves : call.Serves catalogue) {first last : Time} {cve : NvdCve Score} :
    cve ∈ call.order first last ↔ cve ∈ catalogue ∧ ∃ time, cve.lastModified = some time ∧
      nvdTimestamp first ≤ time ∧ time ≤ nvdTimestamp last := by
  rw [(serves first last).mem_iff, List.mem_filter, inWindow]
  cases cve.lastModified <;> simp

/-- One window: it receives a beginning of the listing, and all of it unless a request fails. -/
theorem ingestWindow_grown (orderly : call.Orderly) {window : Time × Time} {progress : Progress Score}
    (closes : (ingestWindow scores call window progress).2 ≠ .stopped) :
    ∃ count, progress.Grown (ingestWindow scores call window progress).1 "nvd"
        (((call.order window.1 window.2).take count).filterMap fun cve => (readNvd scores cve).row) ∧
      ((ingestWindow scores call window progress).2 = .finished ∧
          (call.order window.1 window.2).length ≤ count ∨
        ∃ error, (ingestWindow scores call window progress).2 = .failed error ∧
          call.fails window.1 window.2 count = some error) := by
  obtain ⟨count, handled, rfl, same, ends⟩ := @walk_spec Nat (NvdCve Score) (Progress Score)
    ScanError (handleRecord (readNvd scores) (call.writes window.1)) _ _ id
    (serves_nextPage call window.1 window.2) ((call.order window.1 window.2).length + 1) 0 progress
    (Nat.zero_le _) (by simp)
  rw [id, List.drop_zero] at same ends
  have complete : (handleAll (handleRecord (readNvd scores) (call.writes window.1)) 0 progress
      ((call.order window.1 window.2).take count)).2 = true :=
    ends.complete closes
  refine ⟨count, ?_, ?_⟩
  · rw [ingestWindow, same]
    exact handleAll_grown (orderly.stored window.1) "nvd" complete
  · rw [complete] at ends
    rw [ingestWindow]
    revert ends
    cases (walk (nextPage (call.fetchPage window.1 window.2))
      (handleRecord (readNvd scores) (call.writes window.1))
      ((call.order window.1 window.2).length + 1) 0 0 progress).2 with
    | finished =>
      rintro ⟨_, reached⟩
      exact .inl ⟨rfl, by omega⟩
    | failed error =>
      rintro ⟨_, last, placed, failed⟩
      obtain rfl : last = count := placed.trans (Nat.zero_add count)
      exact .inr ⟨error, rfl, fails_of_nextPage failed⟩
    | stopped => exact nofun

section

variable (serves : call.Serves catalogue)
include serves

theorem received_le {window : Time × Time} {count : Nat} {row : VulnerabilityRow Score}
    (member : row ∈ ((call.order window.1 window.2).take count).filterMap fun cve => (readNvd scores cve).row)
    {time : Time} (dated : row.modifiedAt = some time) : time ≤ nvdTimestamp window.2 := by
  obtain ⟨cve, listed, read⟩ := List.mem_filterMap.mp member
  obtain ⟨_, found, modified, _, before⟩ := (mem_order serves).mp (List.mem_of_mem_take listed)
  rw [readNvd_row read, modified] at dated
  exact Option.some.inj dated ▸ before

theorem received_or_coming (window : Time × Time) (count : Nat)
    {row : VulnerabilityRow Score} (member : row ∈ catalogueRows (readNvd scores) catalogue) {time : Time}
    (dated : row.modifiedAt = some time) (after : nvdTimestamp window.1 ≤ time)
    (before : time ≤ nvdTimestamp window.2) :
    (row ∈ ((call.order window.1 window.2).take count).filterMap fun cve => (readNvd scores cve).row) ∨
      ∃ cve ∈ (call.order window.1 window.2).drop count, cve.lastModified = some time := by
  obtain ⟨cve, listed, read⟩ := List.mem_filterMap.mp member
  rw [readNvd_row read] at dated
  have present : cve ∈ call.order window.1 window.2 :=
    (mem_order serves).mpr ⟨listed, time, dated, after, before⟩
  rw [← List.take_append_drop count (call.order window.1 window.2)] at present
  rcases List.mem_append.mp present with front | back
  · exact .inl (List.mem_filterMap.mpr ⟨cve, front, read⟩)
  · exact .inr ⟨cve, back, dated⟩

theorem window_failed_fills (orderly : call.Orderly) {window : Time × Time}
    {count : Nat} {error : ScanError} (failed : call.fails window.1 window.2 count = some error) :
    Fills (catalogueRows (readNvd scores) catalogue)
      (((call.order window.1 window.2).take count).filterMap fun cve => (readNvd scores cve).row)
      (nvdTimestamp window.1) := by
  intro row member time dated after
  rcases le_or_gt time (nvdTimestamp window.2) with before | beyond
  · rcases received_or_coming serves window count member dated after before with here | coming
    · exact .inl here
    obtain ⟨cve, back, modified⟩ := coming
    refine .inr fun other received t otherDated => ?_
    obtain ⟨first, front, read⟩ := List.mem_filterMap.mp received
    rw [readNvd_row read] at otherDated
    exact orderly.sorted _ _ count error failed first front cve back t time otherDated modified
  · refine .inr fun other received t otherDated => ?_
    exact ((received_le serves received otherDated).trans_lt beyond).le

/-- Windows that are all read fill the catalogue from the start of the first one on. -/
theorem ingestWindows_fills (orderly : call.Orderly) {count : Nat}
    {cursor : Time} {progress : Progress Score}
    (closes : (ingestWindows scores call (windows count cursor call.now) progress).2 ≠ .stopped) :
    ∃ received, progress.Grown (ingestWindows scores call (windows count cursor call.now) progress).1 "nvd"
        received ∧
      Fills (catalogueRows (readNvd scores) catalogue) received (nvdTimestamp cursor) := by
  induction count generalizing cursor progress with
  | zero => exact ⟨[], .refl progress "nvd", fills_nil _ _⟩
  | succ count ih =>
    rw [windows] at closes ⊢
    by_cases more : cursor < call.now
    · rw [if_pos more] at closes ⊢
      simp only [ingestWindows] at closes ⊢
      have grows := @ingestWindow_grown Score scores call orderly
        (cursor, min (cursor + days maxWindowDays) call.now) progress
      cases walked : ingestWindow scores call
          (cursor, min (cursor + days maxWindowDays) call.now) progress with
      | mk after ending =>
        rw [walked] at closes grows
        have goesOn : ending ≠ .stopped := by
          rintro rfl
          exact closes rfl
        obtain ⟨number, grown, ends⟩ := grows goesOn
        rcases ends with ⟨finished, whole⟩ | ⟨error, stopped, failed⟩
        · obtain rfl : ending = .finished := finished
          obtain ⟨received, later, fills⟩ := ih closes
          refine ⟨_, grown.trans later, ?_⟩
          intro row member time dated start
          rcases le_or_gt time (nvdTimestamp (min (cursor + days maxWindowDays) call.now)) with
            before | beyond
          · rcases received_or_coming serves
              (cursor, min (cursor + days maxWindowDays) call.now) number member dated start
              before with here | ⟨cve, back, _⟩
            · exact .inl (List.mem_append_left _ here)
            · rw [List.drop_eq_nil_of_le whole] at back
              cases back
          · rcases fills row member time dated beyond.le with here | latest
            · exact .inl (List.mem_append_right _ here)
            refine .inr fun other listed t otherDated => ?_
            rcases List.mem_append.mp listed with front | back
            · exact ((received_le serves front otherDated).trans_lt beyond).le
            · exact latest other back t otherDated
        · obtain rfl : ending = .failed error := stopped
          exact ⟨_, grown, window_failed_fills serves orderly failed⟩
    · rw [if_neg more]
      exact ⟨[], .refl progress "nvd", fills_nil _ _⟩

theorem ingestWindow_closes (reads : ∀ cve ∈ catalogue, ∃ row, readNvd scores cve = .ok row)
    (window : Time × Time) (progress : Progress Score) :
    (ingestWindow scores call window progress).2 ≠ .stopped := by
  obtain ⟨count, handled, rfl, _, ends⟩ := @walk_spec Nat (NvdCve Score) (Progress Score)
    ScanError (handleRecord (readNvd scores) (call.writes window.1)) _ _ id
    (serves_nextPage call window.1 window.2) ((call.order window.1 window.2).length + 1) 0 progress
    (Nat.zero_le _) (by simp)
  rw [id, List.drop_zero] at ends
  have complete : (handleAll (handleRecord (readNvd scores) (call.writes window.1)) 0 progress
      ((call.order window.1 window.2).take count)).2 = true := by
    refine handleAll_complete fun cve member => reads cve ?_
    exact ((mem_order serves).mp (List.mem_of_mem_take member)).1
  rw [complete] at ends
  exact ends.closes

theorem ingestWindows_closes (reads : ∀ cve ∈ catalogue, ∃ row, readNvd scores cve = .ok row)
    (spans : List (Time × Time)) (progress : Progress Score) :
    (ingestWindows scores call spans progress).2 ≠ .stopped := by
  induction spans generalizing progress with
  | nil => exact nofun
  | cons window rest ih =>
    have closes := ingestWindow_closes serves reads window progress
    rw [ingestWindows]
    cases walked : ingestWindow scores call window progress with
    | mk after ending =>
      rw [walked] at closes
      cases ending with
      | finished => exact ih after
      | failed error => exact nofun
      | stopped => exact absurd rfl closes

end

theorem handleRecord_cursor {Item : Type} (read : Item → Reading Score) (writes : Nat → Bool)
    (number : Nat) (progress : Progress Score) (item : Item) (source : String) :
    (handleRecord read writes number progress item).1.store.storedLastModified source =
      progress.store.storedLastModified source := by
  rw [handleRecord]
  cases read item with
  | error panic => rfl
  | ok found =>
    cases found with
    | none => rfl
    | some entry =>
      simp only [Progress.receive]
      split
      · exact storedLastModified_ingest _ _ _ _
      · rfl

theorem ingestWindows_cursor (call : NvdCall Score) (spans : List (Time × Time))
    (progress : Progress Score) (source : String) :
    (ingestWindows scores call spans progress).1.store.storedLastModified source =
      progress.store.storedLastModified source := by
  induction spans generalizing progress with
  | nil => rfl
  | cons window rest ih =>
    have kept : (ingestWindow scores call window progress).1.store.storedLastModified source =
        progress.store.storedLastModified source :=
      walk_invariant
        (fun number state item same => (handleRecord_cursor _ _ number state item source).trans same)
        _ rfl
    rw [ingestWindows]
    cases walked : ingestWindow scores call window progress with
    | mk after ending =>
      rw [walked] at kept
      cases ending with
      | finished => exact (ih after).trans kept
      | failed error | stopped => exact kept

/-- A run moves the cursor over what has been written; one that a record stops leaves it. -/
theorem NvdIngester.run_covered (ingester : NvdIngester) (serves : call.Serves catalogue)
    (orderly : call.Orderly) {store : VulnStore Score} (resumes : (store.storedLastModified "nvd").isSome ∨
      ∀ cve ∈ catalogue, ∃ row, readNvd scores cve = .ok row) {first : Time}
    {written : List (VulnerabilityRow Score)}
    (covered : Covered VulnerabilityRow.modifiedAt (catalogueRows (readNvd scores) catalogue) first
      (ingester.start store call.now) written) :
    ∃ cursor, (ingester.run scores store call).store.storedLastModified "nvd" = some cursor ∧
      Covered VulnerabilityRow.modifiedAt (catalogueRows (readNvd scores) catalogue) first cursor
        (written ++ (ingester.run scores store call).written) := by
  have floor : nvdTimestamp (ingester.start store call.now) ≤ ingester.start store call.now :=
    Int.ediv_mul_le _ (by decide)
  have same := @ingestWindows_cursor Score scores call
    (windows (((call.now - ingester.start store call.now) / days maxWindowDays).toNat + 1)
      (ingester.start store call.now) call.now)
    ⟨store, ingester.start store call.now, .default, []⟩ "nvd"
  by_cases closes : (ingestWindows scores call
      (windows (((call.now - ingester.start store call.now) / days maxWindowDays).toNat + 1)
        (ingester.start store call.now) call.now)
      ⟨store, ingester.start store call.now, .default, []⟩).2 = .stopped
  · rcases resumes with stored | reads
    · obtain ⟨cursor, found⟩ := Option.isSome_iff_exists.mp stored
      rw [NvdIngester.start, found, Option.getD_some] at covered
      refine ⟨cursor, ?_, ?_⟩
      · simp only [NvdIngester.run, closes, closeRun]
        exact same.trans found
      · intro row member time dated after before
        exact List.mem_append_left _ (covered row member time dated after before)
    · exact absurd closes (ingestWindows_closes serves reads _ _)
  · obtain ⟨received, grown, fills⟩ := ingestWindows_fills serves orderly closes
    refine closeRun_covered covered grown ?_ closes
    intro row member time dated after
    exact fills row member time dated (floor.trans after)

def NvdIngester.bootstrap (ingester : NvdIngester) (call : NvdCall Score) : Time :=
  call.now - days ingester.bootstrapWindowDays

def NvdIngester.step (scores : ScoreLib Score) (ingester : NvdIngester)
    (history : DeltaHistory Score) (call : NvdCall Score) : DeltaHistory Score :=
  let run := ingester.run scores history.store call
  ⟨run.store, history.written ++ run.written⟩

end Nvd

section Ghsa

variable {Score : Type}

/-- A page of nodes. -/
structure GhsaPage (Score : Type) where
  nodes : List (GhsaNode Score)
  endCursor : Option String
  hasNext : Bool

/-- A call of `run` with what it meets: for each `updatedSince` the listing of the API, the page
requests that fail, the sizes of the pages (one less), the text of a cursor and its place, and the
row writes that commit. -/
structure GhsaCall (Score : Type) where
  now : Time
  order : Option Time → List (GhsaNode Score)
  fails : Option Time → Nat → Option ScanError
  size : Option Time → Nat → Nat
  token : Nat → String
  place : String → Nat
  writes : Nat → Bool

def GhsaCall.placeOf (call : GhsaCall Score) (cursor : Option String) : Nat := (cursor.map call.place).getD 0

def GhsaCall.fetchPage (call : GhsaCall Score) (updatedSince : Option Time)
    (cursor : Option String) : Except ScanError (GhsaPage Score) :=
  let place := call.placeOf cursor
  let reached := place + call.size updatedSince place + 1
  match call.fails updatedSince place with
  | some error => .error error
  | none => .ok
      { nodes := ((call.order updatedSince).drop place).take (call.size updatedSince place + 1)
        endCursor := some (call.token reached)
        hasNext := reached < (call.order updatedSince).length }

/-- A page, and the cursor of the next one unless it is the last. -/
def nextNodes (fetchPage : Option String → Except ScanError (GhsaPage Score)) (cursor : Option String) :
    Except ScanError (List (GhsaNode Score) × Option (Option String)) :=
  (fetchPage cursor).map fun page =>
    (page.nodes, if page.hasNext then some page.endCursor else none)

def readGhsa (node : GhsaNode Score) : Reading Score :=
  .ok ((normaliseGhsa node).map fun (vuln, ranges) => (vuln, some ranges))

def ghsaStart (store : VulnStore Score) (now : Time) : Time :=
  (store.storedLastModified "ghsa").getD (now - days 3650)

def ghsaRun (store : VulnStore Score) (call : GhsaCall Score) : RunResult Score :=
  let updatedSince := store.storedLastModified "ghsa"
  let (progress, ending) := walk (nextNodes (call.fetchPage updatedSince))
    (handleRecord readGhsa call.writes) ((call.order updatedSince).length + 1) none 0
    ⟨store, ghsaStart store call.now, .default, []⟩
  closeRun "ghsa" call.now progress ending

def updatedFrom (updatedSince : Option Time) (node : GhsaNode Score) : Bool :=
  updatedSince.all fun since => node.updatedAt.any fun time => since ≤ time

/-- The API lists the advisories in the order of their updates, and knows its own cursors. -/
structure GhsaCall.Serves (call : GhsaCall Score) (catalogue : List (GhsaNode Score)) : Prop where
  listed : ∀ updatedSince, (call.order updatedSince).Perm (catalogue.filter (updatedFrom updatedSince))
  sorted : ∀ updatedSince, (call.order updatedSince).Pairwise fun one two =>
    ∀ s t, one.updatedAt = some s → two.updatedAt = some t → s ≤ t
  placed : ∀ number, call.place (call.token number) = number

variable {call : GhsaCall Score} {catalogue : List (GhsaNode Score)}

theorem serves_nextNodes (serves : call.Serves catalogue) (updatedSince : Option Time) :
    DeltaFeed.Serves (nextNodes (call.fetchPage updatedSince)) (call.order updatedSince) call.placeOf := by
  intro cursor items next fetched
  unfold nextNodes GhsaCall.fetchPage at fetched
  simp only at fetched
  cases failed : call.fails updatedSince (call.placeOf cursor) with
  | some error =>
    rw [failed] at fetched
    cases fetched
  | none =>
    rw [failed] at fetched
    cases fetched
    refine ⟨by simp [List.take_eq_take_iff], ?_⟩
    have length := List.length_take (i := call.size updatedSince (call.placeOf cursor) + 1)
      (l := (call.order updatedSince).drop (call.placeOf cursor))
    rw [List.length_drop] at length
    simp only [decide_eq_true_eq]
    split
    · rename_i final
      split at final
      · cases final
      · omega
    · rename_i later final
      split at final
      · cases final
        have place : call.placeOf (some (call.token
            (call.placeOf cursor + call.size updatedSince (call.placeOf cursor) + 1))) =
            call.placeOf cursor + call.size updatedSince (call.placeOf cursor) + 1 :=
          serves.placed _
        refine ⟨by rw [place]; omega, ?_⟩
        intro none
        rw [none, List.length_nil] at length
        omega
      · cases final

theorem readGhsa_row (read : (readGhsa node).row = some row) : row.modifiedAt = node.updatedAt := by
  unfold readGhsa at read
  cases normalised : normaliseGhsa node with
  | none =>
    rw [normalised] at read
    cases read
  | some entry =>
    rw [normalised] at read
    obtain ⟨vuln, ranges⟩ := entry
    cases read
    exact (normaliseGhsa_some normalised).2.1

/-- A beginning of the listing fills the catalogue: what is still to come is no earlier. -/
theorem listing_fills (serves : call.Serves catalogue) (updatedSince : Option Time) (count : Nat) {mark : Time}
    (start : ∀ since, updatedSince = some since → since = mark) :
    Fills (catalogueRows readGhsa catalogue)
      (((call.order updatedSince).take count).filterMap fun node => (readGhsa node).row) mark := by
  intro row member time dated after
  obtain ⟨node, listed, read⟩ := List.mem_filterMap.mp member
  rw [readGhsa_row read] at dated
  have present : node ∈ call.order updatedSince := by
    rw [(serves.listed updatedSince).mem_iff, List.mem_filter]
    refine ⟨listed, ?_⟩
    cases updatedSince with
    | none => rfl
    | some since =>
      obtain rfl := start since rfl
      simpa [updatedFrom, dated] using after
  have sorted := serves.sorted updatedSince
  rw [← List.take_append_drop count (call.order updatedSince)] at present sorted
  rcases List.mem_append.mp present with front | back
  · exact .inl (List.mem_filterMap.mpr ⟨node, front, read⟩)
  refine .inr fun other received t otherDated => ?_
  obtain ⟨first, taken, firstRead⟩ := List.mem_filterMap.mp received
  rw [readGhsa_row firstRead] at otherDated
  exact (List.pairwise_append.mp sorted).2.2 first taken node back t time otherDated dated

/-- A run moves the cursor over what has been written, wherever a request fails. -/
theorem ghsaRun_covered (serves : call.Serves catalogue) (stored : ∀ number, call.writes number = true)
    {store : VulnStore Score} {first : Time} {written : List (VulnerabilityRow Score)}
    (covered : Covered VulnerabilityRow.modifiedAt (catalogueRows readGhsa catalogue) first
      (ghsaStart store call.now) written) :
    ∃ cursor, (ghsaRun store call).store.storedLastModified "ghsa" = some cursor ∧
      Covered VulnerabilityRow.modifiedAt (catalogueRows readGhsa catalogue) first cursor
        (written ++ (ghsaRun store call).written) := by
  obtain ⟨count, handled, rfl, same, ends⟩ := @walk_spec (Option String) (GhsaNode Score)
    (Progress Score) ScanError (handleRecord readGhsa call.writes) _ _ call.placeOf
    (serves_nextNodes serves (store.storedLastModified "ghsa"))
    ((call.order (store.storedLastModified "ghsa")).length + 1) none
    ⟨store, ghsaStart store call.now, .default, []⟩ (Nat.zero_le _) (by simp [GhsaCall.placeOf])
  have begins : call.placeOf none = 0 := rfl
  rw [begins, List.drop_zero] at same ends
  have complete := @handleAll_complete Score _ readGhsa call.writes 0
    ⟨store, ghsaStart store call.now, .default, []⟩
    ((call.order (store.storedLastModified "ghsa")).take count) fun node _ => ⟨_, rfl⟩
  have grown := handleAll_grown stored "ghsa" complete
  rw [← same] at grown
  have fills := listing_fills serves (store.storedLastModified "ghsa") count
    (show ∀ since, store.storedLastModified "ghsa" = some since → since = ghsaStart store call.now by
      intro since found
      rw [ghsaStart, found, Option.getD_some])
  rw [complete] at ends
  exact closeRun_covered covered grown fills ends.closes

def ghsaBootstrap (call : GhsaCall Score) : Time := call.now - days 3650

def ghsaStep (history : DeltaHistory Score) (call : GhsaCall Score) : DeltaHistory Score :=
  let run := ghsaRun history.store call
  ⟨run.store, history.written ++ run.written⟩

end Ghsa

/-- Along runs whose writes commit no advisory before the cursor is lost; for NVD, where a failing
request meets a window that is listed in order, and where no record stops a run that has no cursor
yet. -/
theorem delta_cursors_lose_nothing {Score : Type} (scores : ScoreLib Score) (ingester : NvdIngester)
    (store : VulnStore Score) :
    (∀ (catalogue : List (NvdCve Score)) (calls : List (NvdCall Score)),
      (∀ call ∈ calls, call.Serves catalogue) → (∀ call ∈ calls, call.Orderly) →
      ((store.storedLastModified "nvd").isSome ∨ ∀ cve ∈ catalogue, ∃ row, readNvd scores cve = .ok row) →
      (Run.after (ingester.step scores) ⟨store, []⟩ calls).LosesNothing "nvd"
        (firstStart "nvd" ingester.bootstrap store calls)
        (catalogueRows (readNvd scores) catalogue)) ∧
    (∀ (catalogue : List (GhsaNode Score)) (calls : List (GhsaCall Score)),
      (∀ call ∈ calls, call.Serves catalogue) →
      (∀ call ∈ calls, ∀ number, call.writes number = true) →
      (Run.after ghsaStep ⟨store, []⟩ calls).LosesNothing "ghsa"
        (firstStart "ghsa" ghsaBootstrap store calls) (catalogueRows readGhsa catalogue)) := by
  constructor
  · intro catalogue calls serves orderly resumes
    refine losesNothing_after ?_ ?_
    · intro call member first covered
      exact ingester.run_covered (serves call member) (orderly call member) resumes covered
    · intro call member history stored first covered
      exact ingester.run_covered (serves call member) (orderly call member) (.inl stored) covered
  · intro catalogue calls serves stored
    refine losesNothing_after ?_ ?_
    · intro call member first covered
      exact ghsaRun_covered (serves call member) (stored call member) covered
    · intro call member history _ first covered
      exact ghsaRun_covered (serves call member) (stored call member) covered

section Demo

def datedCve (id : String) (day : Int) : NvdCve Nat := ⟨id, none, some (days day), [], [], ⟨[], [], []⟩⟩

/-- A call on day 100 that lists a catalogue as it stands, one record a page. -/
def nvdCallOf (catalogue : List (NvdCve Nat)) (failsAt : Option Nat) (writes : Nat → Bool) : NvdCall Nat where
  now := days 100
  order := fun first last => catalogue.filter (inWindow (first, last))
  fails := fun _ _ index => if failsAt = some index then some (.vulnDb "timeout") else none
  size := fun _ _ _ => 0
  writes := fun _ => writes

theorem nvdCallOf_serves (catalogue : List (NvdCve Nat)) (failsAt : Option Nat)
    (writes : Nat → Bool) : (nvdCallOf catalogue failsAt writes).Serves catalogue :=
  fun _ _ => .refl _

variable (failsAt : Option Nat)

theorem nvdCallOf_orderly
    (sorted : catalogue.Pairwise fun one two => ∀ s t, one.lastModified = some s →
      two.lastModified = some t → s ≤ t) :
    (nvdCallOf catalogue failsAt fun _ => true).Orderly := by
  refine ⟨fun _ _ => rfl, ?_⟩
  intro first last index error _ one front two back
  have listed := sorted.filter (inWindow (first, last))
  rw [← List.take_append_drop index (catalogue.filter _)] at listed
  exact (List.pairwise_append.mp listed).2.2 one front two back

def datedNode (id : String) (day : Int) : GhsaNode Nat :=
  ⟨id, [], none, none, "HIGH", none, some (days day), [], none, [⟨"x", "npm", some "< 2", none⟩]⟩

def ghsaCallOf (catalogue : List (GhsaNode Nat)) (failsAt : Option Nat) (writes : Nat → Bool) :
    GhsaCall Nat where
  now := days 100
  order := fun updatedSince => catalogue.filter (updatedFrom updatedSince)
  fails := fun _ place => if failsAt = some place then some (.vulnDb "timeout") else none
  size := fun _ _ => 0
  token := fun number => String.ofList (List.replicate number 'x')
  place := String.length
  writes := writes

theorem ghsaCallOf_serves (writes : Nat → Bool)
    (sorted : catalogue.Pairwise fun one two => ∀ s t, one.updatedAt = some s →
      two.updatedAt = some t → s ≤ t) :
    (ghsaCallOf catalogue failsAt writes).Serves catalogue :=
  ⟨fun _ => .refl _, fun updatedSince => sorted.filter (updatedFrom updatedSince),
    fun number => by simp [ghsaCallOf]⟩

def twoCves : List (NvdCve Nat) := [datedCve "CVE-1" 80, datedCve "CVE-2" 90]

def twoNodes : List (GhsaNode Nat) := [datedNode "GHSA-1" 80, datedNode "GHSA-2" 90]

theorem twoCves_sorted : twoCves.Pairwise fun one two => ∀ s t, one.lastModified = some s →
    two.lastModified = some t → s ≤ t := by
  refine List.pairwise_pair.mpr ?_
  rintro s t ⟨⟩ ⟨⟩
  decide

theorem twoNodes_sorted : twoNodes.Pairwise fun one two => ∀ s t, one.updatedAt = some s →
    two.updatedAt = some t → s ≤ t := by
  refine List.pairwise_pair.mpr ?_
  rintro s t ⟨⟩ ⟨⟩
  decide

def nvdAfter (calls : List (NvdCall Nat)) : DeltaHistory Nat :=
  Run.after ((NvdIngester.new 30).step blankScores) ⟨.empty, []⟩ calls

def ghsaAfter (calls : List (GhsaCall Nat)) : DeltaHistory Nat := Run.after ghsaStep ⟨.empty, []⟩ calls

/-- Two runs each, the first of which fails at its second page. -/
theorem resumed_runs_lose_nothing : ((nvdAfter [nvdCallOf twoCves (some 1) fun _ => true,
          nvdCallOf twoCves none fun _ => true]).LosesNothing "nvd" (days 70)
        (catalogueRows (readNvd blankScores) twoCves) ∧
      (nvdAfter [nvdCallOf twoCves (some 1) fun _ => true,
          nvdCallOf twoCves none fun _ => true]).store.storedLastModified "nvd" =
        some (days 90)) ∧
    ((ghsaAfter [ghsaCallOf twoNodes (some 1) fun _ => true,
          ghsaCallOf twoNodes none fun _ => true]).LosesNothing "ghsa" (days 100 - days 3650)
        (catalogueRows readGhsa twoNodes) ∧
      (ghsaAfter [ghsaCallOf twoNodes (some 1) fun _ => true,
          ghsaCallOf twoNodes none fun _ => true]).store.storedLastModified "ghsa" =
        some (days 90)) := by
  have both := delta_cursors_lose_nothing blankScores (NvdIngester.new 30) .empty
  refine ⟨⟨both.1 twoCves _ ?_ ?_ (.inr ?_), by decide +kernel⟩, ⟨both.2 twoNodes _ ?_ ?_, by decide +kernel⟩⟩
  · intro call member
    rcases List.mem_pair.mp member with rfl | rfl <;> exact nvdCallOf_serves _ _ _
  · intro call member
    rcases List.mem_pair.mp member with rfl | rfl <;> exact nvdCallOf_orderly _ twoCves_sorted
  · intro cve member
    rcases List.mem_pair.mp member with rfl | rfl <;> exact ⟨_, rfl⟩
  · intro call member
    rcases List.mem_pair.mp member with rfl | rfl <;> exact ghsaCallOf_serves _ _ twoNodes_sorted
  · intro call member
    rcases List.mem_pair.mp member with rfl | rfl <;> exact fun _ => rfl

/-- The first record of NVD is lost where its write fails, or where it is listed last and its page
fails; that of GHSA where its write fails. -/
theorem delta_cursor_passes_advisory : ((nvdCallOf twoCves none (· != 0)).Serves twoCves ∧
      ¬ (nvdAfter [nvdCallOf twoCves none (· != 0)]).LosesNothing "nvd" (days 70)
        (catalogueRows (readNvd blankScores) twoCves)) ∧
    ((nvdCallOf twoCves.reverse (some 1) fun _ => true).Serves twoCves.reverse ∧
      ¬ (nvdAfter [nvdCallOf twoCves.reverse (some 1) fun _ => true,
          nvdCallOf twoCves.reverse none fun _ => true]).LosesNothing "nvd" (days 70)
        (catalogueRows (readNvd blankScores) twoCves.reverse)) ∧
    ((ghsaCallOf twoNodes none (· != 0)).Serves twoNodes ∧
      ¬ (ghsaAfter [ghsaCallOf twoNodes none (· != 0)]).LosesNothing "ghsa"
        (days 100 - days 3650) (catalogueRows readGhsa twoNodes)) := by
  refine ⟨⟨nvdCallOf_serves _ _ _, ?written⟩, ⟨nvdCallOf_serves _ _ _, ?listed⟩,
    ⟨ghsaCallOf_serves _ _ twoNodes_sorted, ?ghsa⟩⟩
  case written | listed =>
    intro kept
    have lost := kept (days 90) (by decide +kernel)
      ⟨"CVE-1", "nvd", none, none, .unknown, none, none, some (days 80), [], []⟩
      (by decide +kernel) (days 80) rfl (by decide) (by decide)
    revert lost
    decide +kernel
  · intro kept
    have lost := kept (days 90) (by decide +kernel)
      ⟨"GHSA-1", "ghsa", none, none, .high, none, none, some (days 80), [], []⟩
      (by decide +kernel) (days 80) rfl (by decide) (by decide)
    revert lost
    decide +kernel

end Demo

end SpectonCr.VulnDb
