import SpectonCr.Base.GroupBy
import SpectonCr.Base.Run
import SpectonCr.Common.Model

namespace SpectonCr.Cost

open GroupBy

inductive UsageOp where
  | pull
  | push
  | manifestGet
  | manifestPut
  | delete
  deriving DecidableEq

inductive UsageSrc where
  | origin
  | cache
  | peer
  | pullThrough
  deriving DecidableEq

/-- The columns besides `bucket_at` that the events are grouped by. -/
structure UsageKey where
  (tenant project repository : String)
  op : UsageOp
  src : UsageSrc
  deriving DecidableEq

/-- A row of `usage_events`, whose `at` is `happenedAt`. -/
structure UsageEvent where
  happenedAt : Time
  key : UsageKey
  bytes : Int

structure Totals where
  (bytes requests : Int)
  deriving DecidableEq

abbrev Bucket := Time × UsageKey

structure UsageStore where
  events : List UsageEvent
  (usageHourly usageDaily : Table Bucket Totals)

inductive RollupError where
  | sqlx (message : String)

def hour : Int := 3600000000000

def day : Int := 24 * hour

section Statements

variable (zone : Int)

/-- `date_trunc` in a session whose time zone has a fixed offset. -/
def dateTrunc (unit : Int) (time : Time) : Time := (time + zone) / unit * unit - zone

def eventBucket (event : UsageEvent) : Bucket := (dateTrunc zone hour event.happenedAt, event.key)

def rowBucket (row : Bucket × Totals) : Bucket := (dateTrunc zone day row.1.1, row.1.2)

def eventTotals (events : List UsageEvent) : Totals := ⟨(events.map UsageEvent.bytes).sum, events.length⟩

def rowTotals (rows : List (Bucket × Totals)) : Totals :=
  ⟨(rows.map fun row => row.2.bytes).sum, (rows.map fun row => row.2.requests).sum⟩

def tableRows (table : Table Bucket Totals) : List (Bucket × Totals) :=
  table.entries.map fun row => (row.1, row.2)

/-- The events from two hours before on. -/
def recentEvents (events : List UsageEvent) (now : Time) : List UsageEvent :=
  events.filter fun event => now - 2 * hour ≤ event.happenedAt

/-- The rows from the start of the day before on. -/
def recentRows (table : Table Bucket Totals) (now : Time) : List (Bucket × Totals) :=
  (tableRows table).filter fun row => dateTrunc zone day (now - day) ≤ row.1.1

/-- Whether the cast to `BIGINT` succeeds. -/
def Totals.fits (totals : Totals) : Bool :=
  -2 ^ 63 ≤ totals.bytes && totals.bytes < 2 ^ 63 && totals.requests < 2 ^ 63

/-- One statement: the number of rows and the table, or an error that leaves the table. -/
def applyRollup (rows : List (Bucket × Totals)) (table : Table Bucket Totals) :
    Except RollupError (Nat × Table Bucket Totals) :=
  if rows.all fun row => row.2.fits then .ok (rows.length, upsert rows table)
  else .error (.sqlx "bigint out of range")

def hourlyGroups (events : List UsageEvent) (now : Time) : List (Bucket × Totals) :=
  groups (eventBucket zone) eventTotals (recentEvents events now)

def dailyGroups (table : Table Bucket Totals) (now : Time) : List (Bucket × Totals) :=
  groups (rowBucket zone) rowTotals (recentRows zone table now)

/-- `rollup_recent` with `NOW()` of each of its two statements. -/
def rollupRecent (store : UsageStore) (now later : Time) : UsageStore × Except RollupError (Nat × Nat) :=
  match applyRollup (hourlyGroups zone store.events now) store.usageHourly with
  | .error error => (store, .error error)
  | .ok (hourlyCount, usageHourly) =>
    match applyRollup (dailyGroups zone usageHourly later) store.usageDaily with
    | .error error => ({ store with usageHourly }, .error error)
    | .ok (dailyCount, usageDaily) =>
      ({ store with usageHourly, usageDaily }, .ok (hourlyCount, dailyCount))

end Statements

/-- A call, with the events stored since the one before. -/
structure RollupCall where
  arrived : List UsageEvent
  (now later : Time)

/-- The tables, the times of all calls and of those that succeeded. -/
structure Billing where
  store : UsageStore
  (calls runs : List Time)

def Billing.empty : Billing := ⟨⟨[], ∅, ∅⟩, [], []⟩

section Billed

variable (zone : Int) (billing : Billing) (call : RollupCall)

/-- What a call finds. -/
def Billing.stored : UsageStore := { billing.store with events := billing.store.events ++ call.arrived }

def Billing.step : Billing :=
  let (store, result) := rollupRecent zone (billing.stored call) call.now call.later
  { store
    calls := billing.calls ++ [call.now]
    runs := match result with
      | .ok _ => billing.runs ++ [call.now]
      | .error _ => billing.runs }

/-- The calls come one after another, and an event before the first call that follows its time. -/
structure Billing.Timely : Prop where
  increasing : ∀ earlier ∈ billing.calls, earlier < call.now
  stored : ∀ event ∈ call.arrived, ∀ earlier ∈ billing.calls, earlier ≤ event.happenedAt

/-- The hour is over, and a call succeeded in the hour after it. -/
def Billing.Closed (start : Time) : Prop := ∃ run ∈ billing.runs, start + hour ≤ run ∧ run ≤ start + 2 * hour

/-- The row of every key of a closed hour has the totals of its events. -/
def Billing.HourlyExact : Prop :=
  ∀ start key, billing.Closed start → members (eventBucket zone) billing.store.events (start, key) ≠ [] →
      billing.store.usageHourly.lookup (start, key) =
        some (eventTotals (members (eventBucket zone) billing.store.events (start, key)))

/-- The daily rows from the start of the day before on are the sums of the day's hourly rows. -/
def UsageStore.DailyExact (store : UsageStore) (now : Time) : Prop :=
  ∀ start key totals, store.usageDaily.lookup (start, key) = some totals →
    dateTrunc zone day (now - day) ≤ start →
      totals = rowTotals (members (rowBucket zone) (tableRows store.usageHourly) (start, key))

/-- After the call the closed hours are exact and, where it succeeded, so are the days. -/
def Billing.Exact : Prop :=
  (billing.step zone call).HourlyExact zone ∧
    ∀ counts, (rollupRecent zone (billing.stored call) call.now call.later).2 = .ok counts →
      (billing.step zone call).store.DailyExact zone call.later

/-- The window of a call whose hourly totals fit starts in no closed hour between two events of one
key. -/
def Billing.Uncut : Prop :=
  ((hourlyGroups zone (billing.stored call).events call.now).all fun row => row.2.fits) = true →
    ∀ start key, billing.Closed start →
      ∀ early ∈ members (eventBucket zone) (billing.stored call).events (start, key),
        ∀ late ∈ members (eventBucket zone) (billing.stored call).events (start, key),
          early.happenedAt < call.now - 2 * hour → late.happenedAt < call.now - 2 * hour

end Billed

section Truncation

variable {zone : Int}

theorem dateTrunc_le (positive : 0 < unit) (time : Time) : dateTrunc zone unit time ≤ time := by
  have below : (time + zone) / unit * unit ≤ time + zone := Int.ediv_mul_le _ positive.ne'
  unfold dateTrunc
  linarith

theorem lt_dateTrunc_add (positive : 0 < unit) (time : Time) : time < dateTrunc zone unit time + unit := by
  have above : time + zone < ((time + zone) / unit + 1) * unit := Int.lt_ediv_add_one_mul_self _ positive
  unfold dateTrunc
  linarith

theorem hour_pos : 0 < hour := by decide

theorem day_pos : 0 < day := by decide

theorem eventBucket_span (bucket : eventBucket zone event = (start, key)) :
    start ≤ event.happenedAt ∧ event.happenedAt < start + hour := by
  obtain ⟨rfl, _⟩ := Prod.mk.inj bucket
  exact ⟨dateTrunc_le hour_pos _, lt_dateTrunc_add hour_pos _⟩

/-- The three outcomes of a call: nothing, the hours, or the hours and the days. -/
theorem rollupRecent_cases (store : UsageStore) (now later : Time) :
    (((hourlyGroups zone store.events now).all fun row => row.2.fits) = false ∧
      (rollupRecent zone store now later).1 = store ∧
      ∃ error, (rollupRecent zone store now later).2 = .error error) ∨
    ((hourlyGroups zone store.events now).all fun row => row.2.fits) = true ∧
      (rollupRecent zone store now later).1.events = store.events ∧
      (rollupRecent zone store now later).1.usageHourly =
        upsert (hourlyGroups zone store.events now) store.usageHourly ∧
      ((∃ error, (rollupRecent zone store now later).2 = .error error ∧
          (rollupRecent zone store now later).1.usageDaily = store.usageDaily) ∨
        ∃ counts, (rollupRecent zone store now later).2 = .ok counts ∧
          (rollupRecent zone store now later).1.usageDaily =
            upsert (dailyGroups zone (rollupRecent zone store now later).1.usageHourly later)
              store.usageDaily) := by
  unfold rollupRecent applyRollup
  split
  · rename_i error refused
    split at refused
    · cases refused
    · rename_i overflow
      exact .inl ⟨Bool.eq_false_iff.mpr overflow, rfl, _, rfl⟩
  · rename_i hourlyCount usageHourly applied
    split at applied
    · rename_i fits
      cases applied
      right
      split
      · exact ⟨fits, rfl, rfl, .inl ⟨_, rfl, rfl⟩⟩
      rename_i dailyCount usageDaily rolled
      split at rolled
      · cases rolled
        exact ⟨fits, rfl, rfl, .inr ⟨_, rfl, rfl⟩⟩
      · cases rolled
    · cases applied

/-- A row afterwards: the totals of what the window has of its bucket, or the row before. -/
theorem lookup_hourlyGroups (events : List UsageEvent) (now : Time) (table : Table Bucket Totals)
    (bucket : Bucket) :
    (upsert (hourlyGroups zone events now) table).lookup bucket =
      if (members (eventBucket zone) events bucket).filter
          (fun event => now - 2 * hour ≤ event.happenedAt) = [] then table.lookup bucket
      else some (eventTotals ((members (eventBucket zone) events bucket).filter
        fun event => now - 2 * hour ≤ event.happenedAt)) := by
  rw [hourlyGroups, lookup_upsert_groups, recentEvents, members_filter]

theorem mem_tableRows : row ∈ tableRows table ↔ table.lookup row.1 = some row.2 := by
  rw [tableRows, List.mem_map]
  constructor
  · rintro ⟨entry, member, rfl⟩
    exact AList.mem_lookup_iff.mpr member
  · intro found
    exact ⟨⟨row.1, row.2⟩, AList.mem_lookup_iff.mp found, rfl⟩

/-- Every daily row has an hourly row of its day. -/
def UsageStore.DailyBacked (zone : Int) (store : UsageStore) : Prop :=
  ∀ bucket totals, store.usageDaily.lookup bucket = some totals →
    ∃ row ∈ tableRows store.usageHourly, rowBucket zone row = bucket

theorem tableRows_hourlyGroups {events : List UsageEvent} {now : Time} {table : Table Bucket Totals}
    {bucket : Bucket} (present : ∃ row ∈ tableRows table, rowBucket zone row = bucket) :
    ∃ row ∈ tableRows (upsert (hourlyGroups zone events now) table), rowBucket zone row = bucket := by
  obtain ⟨⟨key, totals⟩, member, same⟩ := present
  have found : table.lookup key = some totals := mem_tableRows.mp member
  have after := @lookup_hourlyGroups zone events now table key
  split at after
  · exact ⟨(key, totals), mem_tableRows.mpr (after.trans found), same⟩
  · exact ⟨(key, _), mem_tableRows.mpr after, same⟩

theorem lookup_dailyGroups (hourly daily : Table Bucket Totals) (now : Time)
    (recent : dateTrunc zone day (now - day) ≤ bucket.1) :
    (upsert (dailyGroups zone hourly now) daily).lookup bucket =
      if members (rowBucket zone) (tableRows hourly) bucket = [] then daily.lookup bucket
      else some (rowTotals (members (rowBucket zone) (tableRows hourly) bucket)) := by
  have whole : members (rowBucket zone) (recentRows zone hourly now) bucket =
      members (rowBucket zone) (tableRows hourly) bucket := by
    rw [recentRows, members_filter, List.filter_eq_self]
    intro row member
    obtain ⟨_, same⟩ := mem_members.mp member
    have start : bucket.1 ≤ row.1.1 := by
      rw [← same]
      exact dateTrunc_le day_pos _
    exact decide_eq_true (recent.trans start)
  rw [dailyGroups, lookup_upsert_groups, whole]

theorem dailyBacked_rollupRecent {store : UsageStore} (backed : store.DailyBacked zone)
    (now later : Time) : (rollupRecent zone store now later).1.DailyBacked zone := by
  rcases @rollupRecent_cases zone store now later with
    ⟨_, same, _⟩ | ⟨_, _, hourly, ⟨_, _, daily⟩ | ⟨_, _, daily⟩⟩
  · rw [same]
    exact backed
  · intro bucket totals found
    rw [daily] at found
    rw [hourly]
    exact tableRows_hourlyGroups (backed bucket totals found)
  · intro bucket totals found
    rw [daily, dailyGroups, lookup_upsert_groups] at found
    split at found
    · rw [hourly]
      exact tableRows_hourlyGroups (backed bucket totals found)
    rename_i some_row
    obtain ⟨row, member⟩ := List.exists_mem_of_ne_nil _ some_row
    obtain ⟨recent, same⟩ := mem_members.mp member
    exact ⟨row, (List.mem_filter.mp recent).1, same⟩

/-- A call that succeeds leaves the last two days exact. -/
theorem dailyExact_rollupRecent {store : UsageStore} (backed : store.DailyBacked zone) {now later : Time}
    {counts : Nat × Nat} (success : (rollupRecent zone store now later).2 = .ok counts) :
    (rollupRecent zone store now later).1.DailyExact zone later := by
  rcases @rollupRecent_cases zone store now later with
    ⟨_, _, _, failed⟩ | ⟨_, _, hourly, ⟨_, failed, _⟩ | ⟨_, _, daily⟩⟩
  · cases success.symm.trans failed
  · cases success.symm.trans failed
  intro start key totals found recent
  rw [daily, lookup_dailyGroups _ _ _ recent] at found
  split at found
  · rename_i none
    obtain ⟨row, member, same⟩ := @tableRows_hourlyGroups zone store.events now _ _ (backed _ totals found)
    rw [← hourly] at member
    exact absurd same (members_eq_nil.mp none row member)
  · exact (Option.some.inj found).symm

variable {billing : Billing} {call : RollupCall}

theorem store_step : (billing.step zone call).store =
    (rollupRecent zone (billing.stored call) call.now call.later).1 := rfl

theorem mem_runs_step (member : run ∈ (billing.step zone call).runs) :
    run ∈ billing.runs ∨ run = call.now := by
  unfold Billing.step at member
  simp only at member
  split at member
  · rcases List.mem_append.mp member with before | last
    · exact .inl before
    · exact .inr (List.mem_singleton.mp last)
  · exact .inl member

theorem Billing.Closed.step (closed : billing.Closed start) : (billing.step zone call).Closed start := by
  obtain ⟨run, member, span⟩ := closed
  refine ⟨run, ?_, span⟩
  unfold Billing.step
  simp only
  split
  · exact List.mem_append_left _ member
  · exact member

theorem members_closed (known : billing.runs ⊆ billing.calls) (timely : billing.Timely call)
    (closed : billing.Closed start) (key : UsageKey) :
    members (eventBucket zone) (billing.stored call).events (start, key) =
      members (eventBucket zone) billing.store.events (start, key) := by
  obtain ⟨run, member, ended, _⟩ := closed
  have none : members (eventBucket zone) call.arrived (start, key) = [] := by
    refine members_eq_nil.mpr fun event arrived bucket => ?_
    have after := timely.stored event arrived run (known member)
    exact absurd (ended.trans after) (not_le.mpr (eventBucket_span bucket).2)
  rw [Billing.stored, members_append, none, List.append_nil]

/-- One call keeps the closed hours exact exactly if it cuts none of them. -/
theorem hourlyExact_step_iff (known : billing.runs ⊆ billing.calls)
    (timely : billing.Timely call) (exact_before : billing.HourlyExact zone) :
    (billing.step zone call).HourlyExact zone ↔ billing.Uncut zone call := by
  rcases @rollupRecent_cases zone (billing.stored call) call.now call.later with
    ⟨overflow, same, error, failed⟩ | ⟨fits, events, hourly, _⟩
  · refine iff_of_true ?_ ?_
    · intro start key closed
      have before : billing.Closed start := by
        simpa only [Billing.Closed, Billing.step, failed] using closed
      rw [store_step, same, members_closed known timely before]
      exact exact_before start key before
    · intro fits
      cases overflow.symm.trans fits
  · constructor
    · intro exact_after _ start key closed early earlyMember late lateMember cut
      by_contra inside
      have row := exact_after start key closed.step
      rw [store_step, events, hourly, lookup_hourlyGroups] at row
      have lateHere : late ∈ (members (eventBucket zone) (billing.stored call).events
          (start, key)).filter fun event => call.now - 2 * hour ≤ event.happenedAt :=
        List.mem_filter.mpr ⟨lateMember, decide_eq_true (not_lt.mp inside)⟩
      rw [if_neg (List.ne_nil_of_mem lateHere)] at row
      have totals := Option.some.inj (row (List.ne_nil_of_mem earlyMember))
      have counts : ((members (eventBucket zone) (billing.stored call).events
          (start, key)).filter fun event => call.now - 2 * hour ≤ event.happenedAt).length =
          (members (eventBucket zone) (billing.stored call).events (start, key)).length :=
        Int.ofNat.inj (congrArg Totals.requests totals)
      have all := List.length_filter_eq_length_iff.mp counts early earlyMember
      exact absurd (of_decide_eq_true all) (not_le.mpr cut)
    · intro uncut start key closed nonempty
      rw [store_step, events] at nonempty ⊢
      rw [hourly, lookup_hourlyGroups]
      by_cases whole : ∀ event ∈ members (eventBucket zone) (billing.stored call).events (start, key),
          call.now - 2 * hour ≤ event.happenedAt
      · have all : (members (eventBucket zone) (billing.stored call).events (start, key)).filter
            (fun event => call.now - 2 * hour ≤ event.happenedAt) =
            members (eventBucket zone) (billing.stored call).events (start, key) :=
          List.filter_eq_self.mpr fun event member => decide_eq_true (whole event member)
        rw [all, if_neg nonempty]
      · simp only [not_forall, not_le] at whole
        obtain ⟨early, earlyMember, cut⟩ := whole
        have before : billing.Closed start := by
          obtain ⟨run, member, ended, soon⟩ := closed
          rcases mem_runs_step member with old | rfl
          · exact ⟨run, old, ended, soon⟩
          · have begins := (eventBucket_span (mem_members.mp earlyMember).2).1
            linarith
        have none : (members (eventBucket zone) (billing.stored call).events (start, key)).filter
            (fun event => call.now - 2 * hour ≤ event.happenedAt) = [] := by
          refine List.filter_eq_nil_iff.mpr fun late lateMember inside => ?_
          have passed := uncut fits start key before early earlyMember late lateMember cut
          exact absurd (of_decide_eq_true inside) (not_le.mpr passed)
        rw [if_pos none]
        rw [members_closed known timely before] at nonempty ⊢
        exact exact_before start key before nonempty

/-- What every run of timely and exact calls keeps. -/
structure Billing.Sound (zone : Int) (billing : Billing) : Prop where
  known : billing.runs ⊆ billing.calls
  backed : billing.store.DailyBacked zone
  hours : billing.HourlyExact zone

theorem Billing.Sound.empty : Billing.empty.Sound zone := by
  refine ⟨List.Subset.refl _, ?_, ?_⟩
  · intro bucket totals found
    cases found
  · rintro start key ⟨run, member, _⟩
    cases member

theorem Billing.Sound.exact_iff (sound : billing.Sound zone) (timely : billing.Timely call) :
    billing.Exact zone call ↔ billing.Uncut zone call := by
  refine (and_iff_left ?_).trans (hourlyExact_step_iff sound.known timely sound.hours)
  intro counts success
  exact @dailyExact_rollupRecent zone (billing.stored call) sound.backed _ _ _ success

theorem Billing.Sound.step (sound : billing.Sound zone) (kept : billing.Exact zone call) :
    (billing.step zone call).Sound zone := by
  refine ⟨?_, @dailyBacked_rollupRecent zone (billing.stored call) sound.backed _ _, kept.1⟩
  intro run member
  rcases mem_runs_step member with before | rfl
  · exact List.mem_append_left _ (sound.known before)
  · exact List.mem_append_right _ (List.mem_singleton.mpr rfl)

end Truncation

/-- Usage is billed exactly along a run if and only if no call cuts a closed hour. -/
theorem usage_billed_iff (zone : Int) (calls : List RollupCall)
    (timely : Run.Along (Billing.step zone) Billing.Timely .empty calls) :
    Run.Along (Billing.step zone) (Billing.Exact zone) .empty calls ↔
      Run.Along (Billing.step zone) (Billing.Uncut zone) .empty calls :=
  Run.along_iff_of_invariant (Billing.Sound zone) (fun _ _ sound timely => sound.exact_iff timely)
    (fun _ _ sound _ kept => sound.step kept) .empty timely

def pulledAt (minute bytes : Int) : UsageEvent :=
  ⟨minute * 60000000000, ⟨"acme", "web", "app", .pull, .origin⟩, bytes⟩

def callAt (minute : Int) (arrived : List UsageEvent) : RollupCall :=
  ⟨arrived, minute * 60000000000, minute * 60000000000⟩

/-- Two pulls in the first hour, and a call five minutes after it. -/
def firstCall : RollupCall := callAt 65 [pulledAt 10 100, pulledAt 50 50]

def billedAfter (calls : List RollupCall) : Billing := Run.after (Billing.step 0) .empty calls

def firstHour : Bucket := (0, ⟨"acme", "web", "app", .pull, .origin⟩)

theorem firstCall_timely : Billing.empty.Timely firstCall := by
  constructor
  · intro earlier member
    cases member
  · intro event _ earlier member
    cases member

theorem timely_after_firstCall (later : 65 < minute) :
    (Billing.empty.step 0 firstCall).Timely (callAt minute []) := by
  have calls : (Billing.empty.step 0 firstCall).calls = [65 * 60000000000] := by
    decide +kernel
  constructor
  · intro earlier member
    rw [calls, List.mem_singleton] at member
    subst member
    show (65 * 60000000000 : Int) < minute * 60000000000
    omega
  · intro event member
    cases member

/-- A second call two hours after the start of the hour. -/
theorem aligned_calls_exact : Run.Along (Billing.step 0) (Billing.Exact 0) .empty [firstCall, callAt 120 []] ∧
      (billedAfter [firstCall, callAt 120 []]).store.usageHourly.lookup firstHour = some ⟨150, 2⟩ := by
  refine ⟨(usage_billed_iff 0 [firstCall, callAt 120 []]
    ⟨firstCall_timely, timely_after_firstCall (by decide), trivial⟩).mpr ⟨?_, ?_, trivial⟩,
    by decide +kernel⟩
  · rintro _ start key ⟨run, member, _⟩
    cases member
  · intro _ start key _ early member late _ cut
    have window : ∀ event ∈ ((Billing.empty.step 0 firstCall).stored (callAt 120 [])).events,
        (callAt 120 []).now - 2 * hour ≤ event.happenedAt := by
      decide +kernel
    exact absurd (window early (mem_members.mp member).1) (not_le.mpr cut)

/-- A second call twenty minutes later takes the first pull out of the hour, and of the day. -/
theorem later_call_cuts_hour : Run.Along (Billing.step 0) Billing.Timely .empty [firstCall, callAt 140 []] ∧
      ¬ Run.Along (Billing.step 0) (Billing.Exact 0) .empty [firstCall, callAt 140 []] ∧
      (billedAfter [firstCall]).store.usageHourly.lookup firstHour = some ⟨150, 2⟩ ∧
      (billedAfter [firstCall, callAt 140 []]).store.usageHourly.lookup firstHour = some ⟨50, 1⟩ ∧
      (billedAfter [firstCall, callAt 140 []]).store.usageDaily.lookup firstHour = some ⟨50, 1⟩ := by
  refine ⟨⟨firstCall_timely, timely_after_firstCall (by decide), trivial⟩, ?_, by decide +kernel⟩
  rintro ⟨_, ⟨hours, _⟩, _⟩
  have row := hours firstHour.1 firstHour.2
    ⟨65 * 60000000000, by decide +kernel, by decide, by decide⟩ (by decide +kernel)
  revert row
  decide +kernel

end SpectonCr.Cost
