import SpectonCr.VulnDb.Sources

namespace SpectonCr.VulnDb

open Scanner (Severity)

/-- A version comparator: `VersionCompare::compare`. -/
abbrev Comparator := String → String → Except String Ordering

/-- The comparators of the `matcher` modules. -/
structure Matchers where
  (semver deb rpm apk pep440 go : Comparator)

/-- A finding of the scanner. -/
structure Finding (Score : Type) where
  id : String
  aliases : List String
  (package ecosystem installedVersion : String)
  fixedVersion : Option String
  severity : Severity
  cvssScore : Option Score
  (summary description layerDigest : Option String)
  references : List String
  suppressed : Bool

/-- At or above `introduced`, below `fixed` and at or below `last_affected`. A comparison that
fails is not in the range. -/
def inRange (compare : Comparator) (installed : String) (range : AffectedRangeRow) : Bool :=
  (range.introduced.all fun introduced => introduced = "0" ||
      match compare installed introduced with
      | .ok .lt | .error _ => false
      | _ => true) &&
    (range.fixed.all fun fixed =>
      match compare installed fixed with
      | .ok .lt => true
      | _ => false) &&
    range.lastAffected.all fun last =>
      match compare installed last with
      | .ok .gt | .error _ => false
      | _ => true

/-- Comparators for versions of one letter. -/
def letterMatchers : Matchers :=
  let order : Comparator := fun one two => .ok (compareOfLessAndEq one two)
  ⟨order, order, order, order, order, order⟩

def Comparator.AtMost (compare : Comparator) (one two : String) : Prop :=
  compare one two = .ok .lt ∨ compare one two = .ok .eq

def Comparator.Below (compare : Comparator) (one two : String) : Prop := compare one two = .ok .lt

/-- The comparator succeeds on these versions and is a total preorder of them. -/
structure Comparator.Orders (compare : Comparator) (domain : Set String) : Prop where
  succeeds : ∀ one ∈ domain, ∀ two ∈ domain, ∃ order, compare one two = .ok order
  swapped : ∀ one ∈ domain, ∀ two ∈ domain, ∀ order, compare one two = .ok order →
    compare two one = .ok order.swap
  transitive : ∀ one ∈ domain, ∀ two ∈ domain, ∀ three ∈ domain, compare.AtMost one two →
    compare.AtMost two three → compare.AtMost one three

/-- At or above a lower bound; `0` bounds nothing. -/
def Comparator.From (compare : Comparator) (lower version : String) : Prop :=
  lower = "0" ∨ compare.AtMost lower version

/-- The bounds of a row, each in the order of the versions. -/
structure Within (compare : Comparator) (version : String) (bounds : RangeBounds) : Prop where
  lower : ∀ introduced, bounds.introduced = some introduced → compare.From introduced version
  below : ∀ fixed, bounds.fixed = some fixed → compare.Below version fixed
  upper : ∀ last, bounds.lastAffected = some last → compare.AtMost version last

def AffectedRangeRow.limits (row : AffectedRangeRow) : RangeBounds :=
  ⟨row.introduced, row.fixed, row.lastAffected⟩

variable {compare : Comparator} {domain : Set String} {installed : String}

theorem Comparator.Orders.atMost_iff (orders : compare.Orders domain) (one : lower ∈ domain)
    (two : installed ∈ domain) :
    compare.AtMost lower installed ↔
      compare installed lower = .ok .gt ∨ compare installed lower = .ok .eq := by
  constructor
  · rintro (less | same)
    · exact .inl (orders.swapped _ one _ two _ less)
    · exact .inr (orders.swapped _ one _ two _ same)
  · rintro (more | same)
    · exact .inl (orders.swapped _ two _ one _ more)
    · exact .inr (orders.swapped _ two _ one _ same)

theorem inRange_iff (orders : compare.Orders domain) (here : installed ∈ domain)
    (known : ∀ introduced, row.introduced = some introduced → introduced ≠ "0" → introduced ∈ domain) :
    inRange compare installed row = true ↔ Within compare installed row.limits := by
  rw [inRange, Bool.and_eq_true, Bool.and_eq_true]
  refine (and_congr (and_congr (?_ : _ ↔ ∀ introduced, row.introduced = some introduced →
      compare.From introduced installed)
    (?_ : _ ↔ ∀ fixed, row.fixed = some fixed → compare.Below installed fixed))
    (?_ : _ ↔ ∀ last, row.lastAffected = some last → compare.AtMost installed last)).trans ⟨?_, ?_⟩
  · cases bound : row.introduced with
    | none => simp
    | some introduced =>
      simp only [Option.all_some, Bool.or_eq_true, decide_eq_true_eq, Option.some.injEq,
        forall_eq', Comparator.From]
      by_cases zero : introduced = "0"
      · simp [zero]
      rw [orders.atMost_iff (known introduced bound zero) here]
      cases compare installed introduced with
      | error reason => simp
      | ok order => cases order <;> simp [zero]
  · cases row.fixed with
    | none => simp
    | some fixed =>
      simp only [Option.all_some, Option.some.injEq, forall_eq', Comparator.Below]
      cases compare installed fixed with
      | error reason => simp
      | ok order => cases order <;> simp
  · cases row.lastAffected with
    | none => simp
    | some last =>
      simp only [Option.all_some, Option.some.injEq, forall_eq', Comparator.AtMost]
      cases compare installed last with
      | error reason => simp
      | ok order => cases order <;> simp
  · rintro ⟨⟨one, two⟩, three⟩
    exact ⟨one, two, three⟩
  · intro within
    exact ⟨⟨within.lower, within.below⟩, within.upper⟩

/-- A row with these bounds alone. -/
def bareRow (introduced fixed lastAffected : Option String) : AffectedRangeRow :=
  ⟨"", "", introduced, fixed, lastAffected, none⟩

def OsvRange.rows (range : OsvRange) : List AffectedRangeRow := walkEvents bareRow none range.events

/-- The version lies in the range, as the walk over its events reads it. -/
def OsvRange.Reaches (compare : Comparator) (installed : String) (range : OsvRange) : Prop :=
  ∃ row ∈ range.rows, inRange compare installed row = true

theorem walkEvents_map (row : Option String → Option String → Option String → AffectedRangeRow)
    (introduced : Option String) (events : List OsvEvent) :
    walkEvents row introduced events = (walkEvents bareRow introduced events).map fun bare =>
      row bare.introduced bare.fixed bare.lastAffected := by
  induction events generalizing introduced with
  | nil => cases introduced <;> rfl
  | cons event rest ih =>
    rw [walkEvents, walkEvents]
    split
    · exact ih _
    · rw [ih, List.map_cons]
      rfl
    · rw [ih, List.map_cons]
      rfl
    · split <;> exact ih _

/-- What the rows of an entry with a package contain: its ranges, of any kind, when they give rows
at all, and otherwise everything up to a listed version. -/
theorem exists_mem_decompose (mapped : mapEcosystem affected.package.ecosystem = some ecosystem)
    (named : affected.package.name ≠ "") (compare : Comparator) (installed : String) :
    (∃ row ∈ decompose affected, inRange compare installed row = true) ↔
      (∃ range ∈ affected.ranges, range.Reaches compare installed) ∨
        (∀ range ∈ affected.ranges, range.rows = []) ∧
          ∃ version ∈ affected.versions, compare.AtMost installed version := by
  simp only [decompose, mapped, if_neg named, walkEvents_map fun introduced fixed lastAffected =>
    (⟨ecosystem, affected.package.name, introduced, fixed, lastAffected, affected.package.purl⟩ :
      AffectedRangeRow)]
  by_cases empty : ∀ range ∈ affected.ranges, range.rows = []
  · have none : (affected.ranges.flatMap fun range => (walkEvents bareRow none range.events).map
        fun bare => (⟨ecosystem, affected.package.name, bare.introduced, bare.fixed,
          bare.lastAffected, affected.package.purl⟩ : AffectedRangeRow)) = [] := by
      refine List.flatMap_eq_nil_iff.mpr fun range member => ?_
      exact List.map_eq_nil_iff.mpr (empty range member)
    have unreached : ¬∃ range ∈ affected.ranges, range.Reaches compare installed := by
      rintro ⟨range, member, row, listed, _⟩
      rw [empty range member] at listed
      cases listed
    rw [and_iff_right empty]
    simp only [none, List.isEmpty_nil, if_true, List.mem_map, exists_exists_and_eq_and, unreached, false_or]
    refine exists_congr fun version => and_congr_right fun _ => ?_
    simp only [inRange, Option.all_none, Option.all_some, Bool.true_and, Comparator.AtMost]
    cases compare installed version with
    | error reason => simp
    | ok order => cases order <;> simp
  · simp only [empty, false_and, or_false]
    rw [if_neg]
    · simp only [List.mem_flatMap, List.mem_map, OsvRange.Reaches]
      constructor
      · rintro ⟨_, ⟨range, member, row, listed, rfl⟩, within⟩
        exact ⟨range, member, row, listed, within⟩
      · rintro ⟨range, member, row, listed, within⟩
        exact ⟨_, ⟨range, member, row, listed, rfl⟩, within⟩
    · rw [List.isEmpty_iff, List.flatMap_eq_nil_iff]
      exact fun none => empty fun range member => List.map_eq_nil_iff.mp (none range member)

/-- The event that closes an interval. -/
inductive Closer where
  | fixed (version : String)
  | lastAffected (version : String)

def introducedAt (version : String) : OsvEvent := ⟨some version, none, none, none⟩

def Closer.event : Closer → OsvEvent
  | .fixed version => ⟨none, some version, none, none⟩
  | .lastAffected version => ⟨none, none, some version, none⟩

def Closer.row (introduced : String) : Closer → AffectedRangeRow
  | .fixed version => bareRow (some introduced) (some version) none
  | .lastAffected version => bareRow (some introduced) none (some version)

@[simp] theorem Closer.row_introduced (introduced : String) (closer : Closer) :
    (closer.row introduced).introduced = some introduced := by
  cases closer <;> rfl

def Closer.Admits (compare : Comparator) (installed : String) : Closer → Prop
  | .fixed version => compare.Below installed version
  | .lastAffected version => compare.AtMost installed version

/-- Events that alternate: closed intervals, and perhaps one that stays open. -/
def alternating (closed : List (String × Closer)) (last : Option String) : List OsvEvent :=
  (closed.flatMap fun interval => [introducedAt interval.1, interval.2.event]) ++
    (last.map introducedAt).toList

/-- OSV's rule: an introduced version at or below, and the closing one, if any, not reached. -/
def OsvAffects (compare : Comparator) (installed : String) (closed : List (String × Closer))
    (last : Option String) : Prop :=
  (∃ interval ∈ closed, compare.From interval.1 installed ∧ interval.2.Admits compare installed) ∨
  ∃ introduced, last = some introduced ∧ compare.From introduced installed

theorem walkEvents_alternating (closed : List (String × Closer)) (last : Option String) :
    walkEvents bareRow none (alternating closed last) =
      (closed.map fun interval => interval.2.row interval.1) ++
        (last.map fun introduced => bareRow (some introduced) none none).toList := by
  induction closed with
  | nil => cases last <;> rfl
  | cons interval rest ih =>
    obtain ⟨introduced, closer⟩ := interval
    have split : alternating ((introduced, closer) :: rest) last =
        introducedAt introduced :: closer.event :: alternating rest last := rfl
    rw [split, List.map_cons, List.cons_append, ← ih]
    cases closer <;> rfl

theorem Closer.within_row (closer : Closer) : Within compare installed (closer.row introduced).limits ↔
      compare.From introduced installed ∧ closer.Admits compare installed := by
  cases closer with
  | fixed version =>
    refine ⟨fun within => ⟨within.lower _ rfl, within.below _ rfl⟩, fun ⟨lower, below⟩ => ?_⟩
    exact ⟨fun _ same => Option.some.inj same ▸ lower, fun _ same => Option.some.inj same ▸ below, nofun⟩
  | lastAffected version =>
    refine ⟨fun within => ⟨within.lower _ rfl, within.upper _ rfl⟩, fun ⟨lower, upper⟩ => ?_⟩
    exact ⟨fun _ same => Option.some.inj same ▸ lower, nofun, fun _ same => Option.some.inj same ▸ upper⟩

/-- The versions that bound a range of alternating events, `0` apart, are in the domain. -/
def Bounded (domain : Set String) (closed : List (String × Closer)) (last : Option String) :
    Prop :=
  (∀ interval ∈ closed, interval.1 ≠ "0" → interval.1 ∈ domain) ∧
    ∀ introduced, last = some introduced → introduced ≠ "0" → introduced ∈ domain

theorem reaches_alternating (orders : compare.Orders domain) (here : installed ∈ domain)
    (bounded : Bounded domain closed last) :
    OsvRange.Reaches compare installed ⟨kind, alternating closed last⟩ ↔
      OsvAffects compare installed closed last := by
  have inside : ∀ interval ∈ closed, inRange compare installed (interval.2.row interval.1) = true ↔
      compare.From interval.1 installed ∧ interval.2.Admits compare installed := by
    intro interval member
    rw [inRange_iff orders here, interval.2.within_row]
    intro introduced same
    rw [Closer.row_introduced] at same
    cases same
    exact bounded.1 interval member
  have unclosed : ∀ introduced, last = some introduced →
      (inRange compare installed (bareRow (some introduced) none none) = true ↔
        compare.From introduced installed) := by
    intro introduced final
    rw [inRange_iff orders here]
    · exact ⟨fun within => within.lower _ rfl, fun lower =>
        ⟨fun _ same => Option.some.inj same ▸ lower, nofun, nofun⟩⟩
    · intro other same
      cases same
      exact bounded.2 introduced final
  simp only [OsvRange.Reaches, OsvRange.rows, walkEvents_alternating, List.mem_append,
    List.mem_map, Option.mem_toList, Option.map_eq_some_iff, OsvAffects]
  constructor
  · rintro ⟨row, ⟨interval, member, rfl⟩ | ⟨introduced, final, rfl⟩, within⟩
    · exact .inl ⟨interval, member, (inside interval member).mp within⟩
    · exact .inr ⟨introduced, final, (unclosed introduced final).mp within⟩
  · rintro (⟨interval, member, within⟩ | ⟨introduced, final, within⟩)
    · exact ⟨_, .inl ⟨interval, member, rfl⟩, (inside interval member).mpr within⟩
    · exact ⟨_, .inr ⟨introduced, final, rfl⟩, (unclosed introduced final).mpr within⟩

/-- For a range of alternating events, the rows contain exactly the versions OSV calls affected. -/
theorem osv_events_affected_iff (compare : Comparator) (domain : Set String) (orders : compare.Orders domain)
    (affected : OsvAffected) (ecosystem kind : String)
    (mapped : mapEcosystem affected.package.ecosystem = some ecosystem) (named : affected.package.name ≠ "")
    (closed : List (String × Closer)) (last : Option String)
    (single : affected.ranges = [⟨kind, alternating closed last⟩]) (introduces : closed ≠ [] ∨ last ≠ none)
    (bounded : Bounded domain closed last) (installed : String) (here : installed ∈ domain) :
    (∃ row ∈ decompose affected, inRange compare installed row = true) ↔
      OsvAffects compare installed closed last := by
  have rows : OsvRange.rows ⟨kind, alternating closed last⟩ ≠ [] := by
    rw [OsvRange.rows, walkEvents_alternating]
    rcases introduces with some | some
    · simp [some]
    · cases last <;> simp_all
  rw [exists_mem_decompose mapped named, single]
  simp only [List.mem_singleton, exists_eq_left, forall_eq, rows, false_and, or_false]
  exact reaches_alternating orders here bounded

section Listed

/-- The event ends what an earlier one introduced. -/
def OsvEvent.closes (event : OsvEvent) : Bool :=
  event.introduced.isNone && (event.fixed.isSome || event.lastAffected.isSome || event.limit.isSome)

/-- The version introduced last, if nothing was closed after it. -/
def opened (events : List OsvEvent) : Option String :=
  (events.reverse.takeWhile fun event => !event.closes).findSome? OsvEvent.introduced

theorem opened_snoc (before : List OsvEvent) (event : OsvEvent) : opened (before ++ [event]) =
    if event.introduced.isSome then event.introduced else if event.closes then none else opened before := by
  rw [opened, List.reverse_append, List.reverse_singleton, List.singleton_append, List.takeWhile_cons]
  cases introduced : event.introduced with
  | some version => simp [OsvEvent.closes, introduced]
  | none => cases event.closes <;> simp [introduced, opened]

/-- The row that an event closes, given what is open before it. -/
def OsvEvent.Ends (open_ : Option String) (event : OsvEvent) (row : AffectedRangeRow) : Prop :=
  event.introduced = none ∧ ((∃ version, event.fixed = some version ∧ row = bareRow open_ (some version) none) ∨
    event.fixed = none ∧ ∃ version, event.lastAffected = some version ∧ row = bareRow open_ none (some version))

private theorem mem_walkEvents (before events : List OsvEvent) :
    row ∈ walkEvents bareRow (opened before) events ↔
      (∃ front event back, events = front ++ event :: back ∧ event.Ends (opened (before ++ front)) row) ∨
      ∃ version, opened (before ++ events) = some version ∧ row = bareRow (some version) none none := by
  induction events generalizing before with
  | nil => simp [walkEvents, eq_comm]
  | cons event rest ih =>
    have first : (∃ front other back, event :: rest = front ++ other :: back ∧
        other.Ends (opened (before ++ front)) row) ↔ event.Ends (opened before) row ∨
          ∃ front other back, rest = front ++ other :: back ∧
            other.Ends (opened (before ++ [event] ++ front)) row := by
      constructor
      · rintro ⟨_ | ⟨_, front⟩, other, back, same, ends⟩
        · obtain ⟨rfl, rfl⟩ := List.cons.inj same
          exact .inl (by simpa using ends)
        · obtain ⟨rfl, rfl⟩ := List.cons.inj same
          exact .inr ⟨front, other, back, rfl, by rwa [← List.append_cons]⟩
      · rintro (ends | ⟨front, other, back, rfl, ends⟩)
        · exact ⟨[], event, rest, rfl, by simpa using ends⟩
        · exact ⟨event :: front, other, back, rfl, by rwa [List.append_cons]⟩
    have later := ih (before ++ [event])
    rw [first, or_assoc, List.append_cons before event rest, ← later, opened_snoc, walkEvents]
    cases introduced : event.introduced with
    | some version => simp [OsvEvent.Ends, introduced]
    | none =>
      cases fixed : event.fixed with
      | some version => simp [OsvEvent.Ends, OsvEvent.closes, introduced, fixed]
      | none =>
        cases last : event.lastAffected with
        | some version => simp [OsvEvent.Ends, OsvEvent.closes, introduced, fixed, last]
        | none => cases limit : event.limit <;>
            simp [OsvEvent.Ends, OsvEvent.closes, introduced, fixed, last, limit]

/-- Versions between events that follow one another in the record: from what was introduced last to
the next closing event, or on to the end. -/
def OsvRange.Stretch (range : OsvRange) (row : AffectedRangeRow) : Prop :=
  (∃ front event back, range.events = front ++ event :: back ∧ event.Ends (opened front) row) ∨
    ∃ version, opened range.events = some version ∧ row = bareRow (some version) none none

theorem OsvRange.mem_rows (range : OsvRange) : row ∈ range.rows ↔ range.Stretch row :=
  mem_walkEvents [] range.events

variable (compare : Comparator) (installed : String) (affected : OsvAffected)

/-- The version of an event. -/
def OsvEvent.version (event : OsvEvent) : String :=
  (event.introduced.or (event.fixed.or (event.lastAffected.or event.limit))).getD "0"

/-- The order of OSV's evaluation; `0` comes first. -/
def OsvEvent.notAfter (first second : OsvEvent) : Bool :=
  first.version = "0" || compare first.version second.version = .ok .lt ||
    compare first.version second.version = .ok .eq

/-- What an event makes of the verdict on the version, in OSV's evaluation. -/
def OsvEvent.judge (vulnerable : Bool) (event : OsvEvent) : Bool :=
  if event.introduced.any fun version => version = "0" || compare version installed = .ok .lt ||
      compare version installed = .ok .eq then true
  else if event.fixed.any fun version => compare version installed = .ok .lt ||
      compare version installed = .ok .eq then false
  else if event.lastAffected.any fun version => compare version installed = .ok .lt then false
  else vulnerable

/-- OSV's rule: below a limit, if there are any, and vulnerable after its events in their order. -/
def OsvRange.affects (range : OsvRange) : Bool :=
  ((range.events.filterMap OsvEvent.limit).isEmpty ||
      (range.events.filterMap OsvEvent.limit).any fun limit => compare installed limit = .ok .lt) &&
    (range.events.insertionSort fun first second => first.notAfter compare second = true).foldl
      (OsvEvent.judge compare installed) false

def OsvAffected.Lists : Prop := ∃ version ∈ affected.versions, compare installed version = .ok .eq

def OsvRange.versioned (range : OsvRange) : Bool := range.kind = "SEMVER" || range.kind = "ECOSYSTEM"

/-- What the entry says: the version is listed, or in a range of versions. -/
def OsvAffected.Says : Prop := affected.Lists compare installed ∨
  ∃ range ∈ affected.ranges, range.versioned = true ∧ range.affects compare installed = true

def OsvAffected.usable : Bool :=
  (mapEcosystem affected.package.ecosystem).isSome && affected.package.name ≠ ""

/-- A stretch of some range, of whatever kind, has the version. -/
def OsvAffected.Spans : Prop :=
  ∃ range ∈ affected.ranges, ∃ row, range.Stretch row ∧ inRange compare installed row = true

/-- The entry is stored as it reads: nothing is lost with an unknown package, no stretch has the
version against the entry, none is missing where the entry has it, and listed versions that stand
alone bring in no others. -/
structure OsvAffected.Exact : Prop where
  dropped : affected.usable = false → ¬affected.Says compare installed
  spanned : affected.usable = true → affected.Spans compare installed → affected.Says compare installed
  stretched : affected.usable = true → (∃ range ∈ affected.ranges, ∃ row, range.Stretch row) →
    affected.Says compare installed → affected.Spans compare installed
  points : affected.usable = true → (∀ range ∈ affected.ranges, ∀ row, ¬range.Stretch row) →
    ∀ version ∈ affected.versions, compare.AtMost installed version → affected.Says compare installed
  limited : affected.usable = true → (∀ range ∈ affected.ranges, ∀ row, ¬range.Stretch row) →
    affected.Says compare installed → ∃ version ∈ affected.versions, compare.AtMost installed version

theorem decompose_of_not_usable (unusable : affected.usable = false) : decompose affected = [] := by
  unfold OsvAffected.usable at unusable
  unfold decompose
  cases mapped : mapEcosystem affected.package.ecosystem with
  | none => rfl
  | some ecosystem =>
    have nameless : affected.package.name = "" := by simpa [mapped] using unusable
    simp only [if_pos nameless]

end Listed

section Ghsa

inductive Operator where
  | atLeast
  | above
  | atMost
  | below
  | equal

def Operator.text : Operator → String
  | .atLeast => ">="
  | .above => ">"
  | .atMost => "<="
  | .below => "<"
  | .equal => "="

structure Constraint where
  operator : Operator
  version : String

variable {bound : Constraint} {bounds : List Constraint} {limits : RangeBounds}

def Constraint.Holds (compare : Comparator) (version : String) (bound : Constraint) : Prop :=
  match bound.operator with
  | .atLeast => compare.AtMost bound.version version
  | .above => compare.Below bound.version version
  | .atMost => compare.AtMost version bound.version
  | .below => compare.Below version bound.version
  | .equal => compare version bound.version = .ok .eq

/-- A part of a range text that spells the constraint. -/
def Constraint.Spells (bound : Constraint) (raw : String) : Prop :=
  ∃ rest, Text.trim raw = bound.operator.text ++ rest ∧ Text.trim rest = bound.version ∧
    (bound.operator = .above ∨ bound.operator = .below → Text.startsWith rest "=" = false)

/-- A range text is a list of constraints with commas between them; no text has none. -/
def Spelled (range : Option String) (bounds : List Constraint) : Prop :=
  match range with
  | none => bounds = []
  | some text => List.Forall₂ Constraint.Spells bounds (Text.split text ',')

def Constraint.apply (bound : Constraint) (limits : RangeBounds) : RangeBounds :=
  match bound.operator with
  | .atLeast | .above => { limits with introduced := some bound.version }
  | .atMost => { limits with lastAffected := some bound.version }
  | .below => { limits with fixed := some bound.version }
  | .equal => { limits with introduced := some bound.version, lastAffected := some bound.version }

theorem parseRangePart_spelled (spells : bound.Spells raw) (limits : RangeBounds) :
    parseRangePart limits raw = bound.apply limits := by
  obtain ⟨rest, trimmed, version, single⟩ := spells
  obtain ⟨operator, named⟩ := bound
  obtain rfl : Text.trim rest = named := version
  unfold parseRangePart Constraint.apply
  simp only at trimmed single
  rw [trimmed]
  cases operator with
  | atLeast => simp [Operator.text]
  | above =>
    have other := single (.inl rfl)
    simp_all [Operator.text, Text.stripPrefix, Text.startsWith, List.isPrefixOf]
  | atMost => simp [Operator.text, Text.stripPrefix, Text.startsWith, List.isPrefixOf]
  | below =>
    have other := single (.inr rfl)
    simp_all [Operator.text, Text.stripPrefix, Text.startsWith, List.isPrefixOf]
  | equal => simp [Operator.text, Text.stripPrefix, Text.startsWith, List.isPrefixOf]

/-- The bounds after some constraints. -/
def applyAll (bounds : List Constraint) (limits : RangeBounds) : RangeBounds :=
  bounds.foldl (fun limits bound => bound.apply limits) limits

theorem parseRange_spelled (spelled : Spelled range bounds) (firstPatched : Option String) :
    parseRange range firstPatched =
      { applyAll bounds ⟨none, none, none⟩ with
        fixed := (applyAll bounds ⟨none, none, none⟩).fixed.or firstPatched } := by
  have folded : ∀ {raws : List String} (limits : RangeBounds), List.Forall₂ Constraint.Spells bounds raws →
        raws.foldl parseRangePart limits = applyAll bounds limits := by
    intro raws limits all
    clear spelled
    induction all generalizing limits with
    | nil => rfl
    | cons spells _ ih =>
      rw [List.foldl_cons, parseRangePart_spelled spells, ih]
      rfl
  cases range with
  | none =>
    obtain rfl : bounds = [] := spelled
    rfl
  | some text => simp only [parseRange, folded _ spelled]

theorem Within.apply (orders : compare.Orders domain) (here : installed ∈ domain)
    (known : bound.version ∈ domain) (within : Within compare installed limits)
    (holds : bound.Holds compare installed) : Within compare installed (bound.apply limits) := by
  obtain ⟨operator, version⟩ := bound
  obtain ⟨lower, below, upper⟩ := within
  cases operator with
  | atLeast => exact ⟨fun _ same => Option.some.inj same ▸ .inr holds, below, upper⟩
  | above => exact ⟨fun _ same => Option.some.inj same ▸ .inr (.inl holds), below, upper⟩
  | atMost => exact ⟨lower, below, fun _ same => Option.some.inj same ▸ holds⟩
  | below => exact ⟨lower, fun _ same => Option.some.inj same ▸ holds, upper⟩
  | equal =>
    have same : compare version installed = .ok .eq := orders.swapped _ here _ known _ holds
    exact ⟨fun _ named => Option.some.inj named ▸ .inr (.inr same), below,
      fun _ named => Option.some.inj named ▸ .inr holds⟩

/-- What satisfies every constraint is within the bounds they leave. -/
theorem Within.applyAll (orders : compare.Orders domain) (here : installed ∈ domain)
    (known : ∀ bound ∈ bounds, bound.version ∈ domain)
    (holds : ∀ bound ∈ bounds, bound.Holds compare installed) (within : Within compare installed limits) :
    Within compare installed (VulnDb.applyAll bounds limits) := by
  induction bounds generalizing limits with
  | nil => exact within
  | cons bound rest ih =>
    refine ih (fun other member => known other (.tail _ member))
      (fun other member => holds other (.tail _ member)) ?_
    exact within.apply orders here (known bound (.head _)) (holds bound (.head _))

theorem introduced_applyAll (known : ∀ bound ∈ bounds, bound.version ∈ domain)
    (before : ∀ introduced, limits.introduced = some introduced → introduced ∈ domain) :
    ∀ introduced, (applyAll bounds limits).introduced = some introduced → introduced ∈ domain := by
  induction bounds generalizing limits with
  | nil => exact before
  | cons bound rest ih =>
    refine ih (fun other member => known other (.tail _ member)) ?_
    intro introduced same
    obtain ⟨operator, version⟩ := bound
    have own : version ∈ domain := known ⟨operator, version⟩ (.head _)
    cases operator with
    | atLeast | above | equal => exact Option.some.inj same ▸ own
    | atMost | below => exact before introduced same

/-- At most one each of `>=`, `<=` and `<`, or a single `=`; no bound is spelled `0`. -/
def Plain (bounds : List Constraint) : Prop :=
  (∀ bound ∈ bounds, bound.version ≠ "0") ∧ ((∃ version, bounds = [⟨.equal, version⟩]) ∨
      (∀ bound ∈ bounds, bound.operator ∈ [Operator.atLeast, .atMost, .below]) ∧
        (bounds.map Constraint.operator).Nodup)

/-- The bound of a constraint is among these. -/
def Constraint.SetIn (bound : Constraint) (limits : RangeBounds) : Prop :=
  match bound.operator with
  | .atLeast | .above => limits.introduced = some bound.version
  | .atMost => limits.lastAffected = some bound.version
  | .below => limits.fixed = some bound.version
  | .equal => limits.introduced = some bound.version ∧ limits.lastAffected = some bound.version

theorem Constraint.setIn_apply (bound : Constraint) (limits : RangeBounds) :
    bound.SetIn (bound.apply limits) := by
  obtain ⟨operator, version⟩ := bound
  cases operator with
  | equal => exact ⟨rfl, rfl⟩
  | _ => rfl

theorem Constraint.SetIn.apply_other {bound other : Constraint} (set : bound.SetIn limits)
    (simple : bound.operator ∈ [Operator.atLeast, .atMost, .below])
    (plain : other.operator ∈ [Operator.atLeast, .atMost, .below])
    (different : other.operator ≠ bound.operator) : bound.SetIn (other.apply limits) := by
  obtain ⟨operator, version⟩ := bound
  obtain ⟨operator', version'⟩ := other
  cases operator <;> cases operator' <;> first | exact set | simp at simple plain different

theorem setIn_applyAll (simple : ∀ bound ∈ bounds, bound.operator ∈ [Operator.atLeast, .atMost, .below])
    (nodup : (bounds.map Constraint.operator).Nodup) :
    ∀ bound ∈ bounds, bound.SetIn (applyAll bounds limits) := by
  have keeps : ∀ {rest : List Constraint} {limits : RangeBounds} {bound : Constraint},
      bound.operator ∈ [Operator.atLeast, .atMost, .below] → bound.SetIn limits →
      (∀ other ∈ rest, other.operator ∈ [Operator.atLeast, .atMost, .below]) →
      bound.operator ∉ rest.map Constraint.operator → bound.SetIn (applyAll rest limits) := by
    intro rest limits bound own set plain absent
    induction rest generalizing limits with
    | nil => exact set
    | cons other rest ih =>
      simp only [List.map_cons, List.mem_cons, not_or] at absent
      refine ih ?_ (fun next member => plain next (.tail _ member)) absent.2
      exact set.apply_other own (plain other (.head _)) (Ne.symm absent.1)
  induction bounds generalizing limits with
  | nil => simp
  | cons bound rest ih =>
    obtain ⟨absent, nodup⟩ := List.nodup_cons.mp nodup
    intro other member
    rcases List.mem_cons.mp member with rfl | later
    · have set : other.SetIn (applyAll rest (other.apply limits)) :=
        keeps (simple other (.head _)) (other.setIn_apply limits)
          (fun next later => simple next (.tail _ later)) absent
      exact set
    · exact ih (fun next member => simple next (.tail _ member)) nodup other later

theorem holds_of_setIn (orders : compare.Orders domain) (here : installed ∈ domain)
    (known : bound.version ∈ domain) (zero : bound.version ≠ "0")
    (exact_ : bound.operator ≠ .above) (set : bound.SetIn limits)
    (within : Within compare installed limits) : bound.Holds compare installed := by
  obtain ⟨operator, version⟩ := bound
  cases operator with
  | above => exact absurd rfl exact_
  | atLeast => exact (within.lower version set).resolve_left zero
  | atMost => exact within.upper version set
  | below => exact within.below version set
  | equal =>
    rcases within.upper version set.2 with less | same
    · have more := orders.swapped _ here _ known _ less
      rcases (within.lower version set.1).resolve_left zero with below | same
      · rw [more] at below
        cases below
      · rw [more] at same
        cases same
    · exact same

/-- The row of a GHSA range has every version that satisfies its constraints, and no other where
the bounds of the row can say as much. -/
theorem ghsa_range_misses_nothing (compare : Comparator) (domain : Set String)
    (orders : compare.Orders domain) (node : GhsaVulnerabilityNode) (row : AffectedRangeRow)
    (stored : vulnNodeToRange node = some row) (bounds : List Constraint)
    (spelled : Spelled node.vulnerableRange bounds) (known : ∀ bound ∈ bounds, bound.version ∈ domain)
    (patched : ∀ first, node.firstPatched = some first → ∀ version ∈ domain,
      (∀ bound ∈ bounds, bound.Holds compare version) → compare.Below version first) (version : String)
    (here : version ∈ domain) :
    ((∀ bound ∈ bounds, bound.Holds compare version) → inRange compare version row = true) ∧
      (Plain bounds → inRange compare version row = true →
        ∀ bound ∈ bounds, bound.Holds compare version) := by
  obtain ⟨ecosystem, _, rfl⟩ := Option.map_eq_some_iff.mp stored
  have named : ∀ introduced, (applyAll bounds ⟨none, none, none⟩).introduced = some introduced →
      introduced ∈ domain := introduced_applyAll known (by simp)
  simp only [parseRange_spelled spelled]
  rw [inRange_iff orders here fun introduced same _ => named introduced same]
  constructor
  · intro holds
    have within : Within compare version (applyAll bounds ⟨none, none, none⟩) :=
      .applyAll orders here known holds ⟨nofun, nofun, nofun⟩
    refine ⟨within.lower, ?_, within.upper⟩
    intro fixed same
    rcases Option.or_eq_some_iff.mp same with own | ⟨_, first⟩
    · exact within.below fixed own
    · exact patched fixed first version here holds
  · rintro ⟨nonzero, shape⟩ ⟨lower, below, upper⟩
    have within : Within compare version (applyAll bounds ⟨none, none, none⟩) :=
      ⟨lower, fun fixed own => below fixed (Option.or_eq_some_iff.mpr (.inl own)), upper⟩
    rcases shape with ⟨version', rfl⟩ | ⟨simple, nodup⟩
    · intro bound member
      obtain rfl := List.mem_singleton.mp member
      exact holds_of_setIn orders here (known _ member) (nonzero _ member) nofun
        (Constraint.setIn_apply _ _) within
    · intro bound member
      have own := simple bound member
      refine holds_of_setIn orders here (known _ member) (nonzero _ member) ?_
        (setIn_applyAll simple nodup bound member) within
      rintro same
      simp [same] at own

end Ghsa

/-- Versions in the order of their lengths. -/
def byLength : Comparator := fun one two => .ok (Ord.compare one.length two.length)

theorem byLength_orders : byLength.Orders Set.univ where
  succeeds _ _ _ _ := ⟨_, rfl⟩
  swapped _ _ _ _ _ same := by
    rw [← Except.ok.inj same, Nat.compare_swap]
    rfl
  transitive one _ two _ three _ := by
    simp only [Comparator.AtMost, byLength, Except.ok.injEq, Nat.compare_eq_lt, Nat.compare_eq_eq]
    omega

theorem fixed_after_introduced :
    ∃ row ∈ decompose ⟨⟨"left-pad", "npm", none⟩, [⟨"SEMVER", alternating [("1", .fixed "1.5")] none⟩], []⟩,
      inRange byLength "12" row = true :=
  (osv_events_affected_iff byLength Set.univ byLength_orders _ "npm" "SEMVER" (by decide +kernel)
    (by decide) [("1", .fixed "1.5")] none rfl (.inl (by simp)) ⟨by simp, by simp⟩ "12"
    trivial).mpr
    (.inl ⟨("1", .fixed "1.5"), by simp, .inr (.inl (by decide +kernel)), by
      show byLength "12" "1.5" = .ok .lt
      decide +kernel⟩)

theorem constraints_of_one_range :
    inRange byLength "12" ⟨"npm", "left-pad", some "1", some "1.5", none, none⟩ = true :=
  (ghsa_range_misses_nothing byLength Set.univ byLength_orders
    ⟨"left-pad", "NPM", some ">= 1, < 1.5", none⟩ _ (by decide +kernel)
    [⟨.atLeast, "1"⟩, ⟨.below, "1.5"⟩]
    (.cons ⟨" 1", by decide +kernel, by decide +kernel, by simp⟩
      (.cons ⟨" 1.5", by decide +kernel, by decide +kernel, fun _ => by decide +kernel⟩ .nil))
    (fun _ _ => trivial) nofun "12" trivial).1 (by
      intro bound member
      simp only [List.mem_cons, List.not_mem_nil, or_false] at member
      rcases member with rfl | rfl
      · exact .inl (by decide +kernel)
      · show byLength "12" "1.5" = .ok .lt
        decide +kernel)

end SpectonCr.VulnDb
