import SpectonCr.VulnDb.Store

namespace SpectonCr.VulnDb

open Scanner (Severity)

/-- The arithmetic on scores: `str::parse::<f64>`, the base score of a CVSS 3 vector, and the
comparisons `>= n` and `> 0`. -/
structure ScoreLib (Score : Type) where
  (parse cvss3Base : String → Option Score)
  atLeast : Score → Nat → Bool
  positive : Score → Bool

section Severity

variable {Score : Type} (scores : ScoreLib Score)

def parseCvssBase (text : String) : Option Score :=
  match scores.parse text with
  | some score => some score
  | none => if Text.startsWith text "CVSS:3" then scores.cvss3Base text else none

def classify : Option Score → Severity
  | none => .unknown
  | some score =>
    if scores.atLeast score 9 then .critical
    else if scores.atLeast score 7 then .high
    else if scores.atLeast score 4 then .medium
    else if scores.positive score then .low
    else .unknown

end Severity

section Osv

structure OsvSeverity where
  (kind score : String)

structure OsvEvent where
  (introduced fixed lastAffected limit : Option String)

structure OsvRange where
  kind : String
  events : List OsvEvent

structure OsvPackage where
  (name ecosystem : String)
  purl : Option String

structure OsvAffected where
  package : OsvPackage
  ranges : List OsvRange
  versions : List String

/-- A record; of a reference only the `url` is read. -/
structure OsvRecord where
  id : String
  aliases : List String
  (summary details : Option String)
  (published modified withdrawn : Option Time)
  severity : List OsvSeverity
  affected : List OsvAffected
  references : List String

def mapEcosystem (osv : String) : Option String :=
  match Text.trim ((Text.split osv ':').headD "") with
  | "Alpine" => some "apk"
  | "Debian" | "Ubuntu" => some "deb"
  | "AlmaLinux" | "Rocky Linux" | "Red Hat" | "RHEL" | "openSUSE" | "SUSE" => some "rpm"
  | "Go" => some "go"
  | "PyPI" => some "pypi"
  | "npm" => some "npm"
  | "crates.io" => some "cargo"
  | "Maven" => some "maven"
  | _ => none

def classifySource (id : String) : String :=
  if Text.startsWith id "CVE-" then "nvd"
  else if Text.startsWith id "GHSA-" then "ghsa"
  else if Text.startsWith id "PYSEC-" then "pysec"
  else if Text.startsWith id "GO-" then "go"
  else if ["ALSA-", "DLA-", "DSA-", "USN-", "RHSA-", "RLSA-"].any (Text.startsWith id) then "distro"
  else "osv"

/-- The loop over the events of one range; `introduced` is the lower bound that is open. -/
def walkEvents (row : Option String → Option String → Option String → AffectedRangeRow) :
    Option String → List OsvEvent → List AffectedRangeRow
  | introduced, [] => (introduced.map fun version => row (some version) none none).toList
  | introduced, event :: rest =>
    match event.introduced, event.fixed, event.lastAffected with
    | some version, _, _ => walkEvents row (some version) rest
    | none, some version, _ => row introduced (some version) none :: walkEvents row none rest
    | none, none, some version => row introduced none (some version) :: walkEvents row none rest
    | none, none, none =>
      if event.limit.isSome then walkEvents row none rest else walkEvents row introduced rest

def decompose (affected : OsvAffected) : List AffectedRangeRow :=
  match mapEcosystem affected.package.ecosystem with
  | none => []
  | some ecosystem =>
    if affected.package.name = "" then []
    else
      let row introduced fixed lastAffected : AffectedRangeRow :=
        { ecosystem, package := affected.package.name, introduced, fixed, lastAffected,
          purl := affected.package.purl }
      let out := affected.ranges.flatMap fun range => walkEvents row none range.events
      if out.isEmpty then affected.versions.map fun version => row none none (some version)
      else out

variable {Score : Type} (scores : ScoreLib Score)

def normalise (record : OsvRecord) : Option (VulnerabilityRow Score × List AffectedRangeRow) :=
  if record.withdrawn.isSome then none
  else
    let ranges := record.affected.flatMap decompose
    if ranges.isEmpty then none
    else
      let cvssScore := (record.severity.find? fun severity =>
        Text.startsWith severity.kind "CVSS").bind fun severity => parseCvssBase scores severity.score
      some
        ({ id := record.id
           source := classifySource record.id
           summary := record.summary.or ((record.details.map fun details =>
             Text.trim ((Text.split details '.').headD details)).filter fun text => text ≠ "")
           description := record.details
           severity := classify scores cvssScore
           cvssScore
           publishedAt := record.published
           modifiedAt := record.modified
           aliases := record.aliases
           references := record.references }, ranges)

variable {scores}

theorem normalise_some (usable : normalise scores record = some (vuln, ranges)) :
    vuln.id = record.id ∧ ranges = record.affected.flatMap decompose ∧ ranges ≠ [] := by
  unfold normalise at usable
  split at usable
  · cases usable
  simp only at usable
  split at usable
  · cases usable
  rename_i present
  cases usable
  refine ⟨rfl, rfl, ?_⟩
  intro none
  exact present (List.isEmpty_iff.mpr none)

end Osv

section Ghsa

structure GhsaIdentifier where
  (idType value : String)

structure GhsaVulnerabilityNode where
  (packageName packageEcosystem : String)
  (vulnerableRange firstPatched : Option String)

/-- An advisory node; `references` has the urls, `cvss` the score of the `cvss` object. -/
structure GhsaNode (Score : Type) where
  ghsaId : String
  identifiers : List GhsaIdentifier
  (summary description : Option String)
  severity : String
  (publishedAt updatedAt : Option Time)
  references : List String
  cvss : Option Score
  vulnerabilities : List GhsaVulnerabilityNode

/-- `to_ascii_uppercase`. -/
def asciiUpper (text : String) : String := String.ofList (text.toList.map Char.toUpper)

def eqIgnoreAsciiCase (one two : String) : Bool := asciiUpper one = asciiUpper two

def parseGhsaSeverity (text : String) : Severity :=
  match asciiUpper text with
  | "CRITICAL" => .critical
  | "HIGH" => .high
  | "MODERATE" | "MEDIUM" => .medium
  | "LOW" => .low
  | _ => .unknown

def ghsaEcosystemToOurs (ecosystem : String) : Option String :=
  match asciiUpper ecosystem with
  | "NPM" => some "npm"
  | "PIP" => some "pypi"
  | "RUST" => some "cargo"
  | "GO" => some "go"
  | "MAVEN" => some "maven"
  | _ => none

/-- The bounds that a range text has given so far. -/
structure RangeBounds where
  (introduced fixed lastAffected : Option String)

def parseRangePart (bounds : RangeBounds) (raw : String) : RangeBounds :=
  let part := Text.trim raw
  match Text.stripPrefix part ">=" with
  | some version => { bounds with introduced := some (Text.trim version) }
  | none => match Text.stripPrefix part ">" with
    | some version => { bounds with introduced := some (Text.trim version) }
    | none => match Text.stripPrefix part "<=" with
      | some version => { bounds with lastAffected := some (Text.trim version) }
      | none => match Text.stripPrefix part "<" with
        | some version => { bounds with fixed := some (Text.trim version) }
        | none => match Text.stripPrefix part "=" with
          | some version =>
            { bounds with
              introduced := some (Text.trim version)
              lastAffected := some (Text.trim version) }
          | none => bounds

def parseRange (range firstPatched : Option String) : RangeBounds :=
  let bounds : RangeBounds := match range with
    | none => ⟨none, none, none⟩
    | some text => (Text.split text ',').foldl parseRangePart ⟨none, none, none⟩
  { bounds with fixed := bounds.fixed.or firstPatched }

def vulnNodeToRange (node : GhsaVulnerabilityNode) : Option AffectedRangeRow :=
  (ghsaEcosystemToOurs node.packageEcosystem).map fun ecosystem =>
    let bounds := parseRange node.vulnerableRange node.firstPatched
    { ecosystem
      package := node.packageName
      introduced := bounds.introduced
      fixed := bounds.fixed
      lastAffected := bounds.lastAffected
      purl := none }

variable {Score : Type}

def canonicalId (node : GhsaNode Score) : String :=
  ((node.identifiers.find? fun identifier => eqIgnoreAsciiCase identifier.idType "CVE").map
    GhsaIdentifier.value).getD node.ghsaId

def normaliseGhsa (node : GhsaNode Score) : Option (VulnerabilityRow Score × List AffectedRangeRow) :=
  let ranges := node.vulnerabilities.filterMap vulnNodeToRange
  if ranges.isEmpty then none
  else
    some
      ({ id := canonicalId node
         source := "ghsa"
         summary := node.summary
         description := node.description
         severity := parseGhsaSeverity node.severity
         cvssScore := node.cvss
         publishedAt := node.publishedAt
         modifiedAt := node.updatedAt
         aliases := (node.identifiers.filter fun identifier =>
           !eqIgnoreAsciiCase identifier.idType "GHSA").map GhsaIdentifier.value
         references := node.references }, ranges)

theorem normaliseGhsa_some (usable : normaliseGhsa node = some (vuln, ranges)) :
    vuln.id = canonicalId node ∧ vuln.modifiedAt = node.updatedAt ∧
      ranges = node.vulnerabilities.filterMap vulnNodeToRange := by
  unfold normaliseGhsa at usable
  simp only at usable
  split at usable
  · cases usable
  · cases usable
    exact ⟨rfl, rfl, rfl⟩

end Ghsa

section Nvd

structure NvdDescription where
  (lang value : String)

structure NvdCvssData (Score : Type) where
  baseScore : Option Score
  baseSeverity : Option String

structure NvdMetrics (Score : Type) where
  (v31 v30 v2 : List (NvdCvssData Score))

/-- The `cve` of an envelope; of a reference only the `url` is read, the weaknesses are not. -/
structure NvdCve (Score : Type) where
  id : String
  (published lastModified : Option Time)
  descriptions : List NvdDescription
  references : List String
  metrics : NvdMetrics Score

/-- A slice that does not end between two characters panics. -/
inductive Panicked where
  | notCharBoundary
  deriving DecidableEq

def utf8Length (chars : List Char) : Nat := (chars.map Char.utf8Size).sum

/-- `&s[..bytes]`. -/
def sliceTo : Nat → List Char → Except Panicked (List Char)
  | 0, _ => .ok []
  | _ + 1, [] => .error .notCharBoundary
  | bytes + 1, c :: rest =>
    if c.utf8Size ≤ bytes + 1 then (sliceTo (bytes + 1 - c.utf8Size) rest).map (c :: ·)
    else .error .notCharBoundary

/-- What stands before the first `". "`. -/
def beforeSentenceEnd : List Char → Option (List Char)
  | '.' :: ' ' :: _ => some []
  | c :: rest => (beforeSentenceEnd rest).map (c :: ·)
  | [] => none

def firstSentence (text : String) : Except Panicked String :=
  let whole := (sliceTo (min (utf8Length text.toList) 200) text.toList).map String.ofList
  match beforeSentenceEnd text.toList with
  | some front =>
    if utf8Length front < 200 then .ok (String.ofList (front ++ ['.'])) else whole
  | none => whole

def pickEnglish (descriptions : List NvdDescription) : Option String :=
  (descriptions.find? fun description => description.lang = "en").map NvdDescription.value

variable {Score : Type} (scores : ScoreLib Score)

def nvdSeverity (text : String) : Severity :=
  match asciiUpper text with
  | "CRITICAL" => .critical
  | "HIGH" => .high
  | "MEDIUM" => .medium
  | "LOW" => .low
  | _ => .unknown

def extractSeverity (metrics : NvdMetrics Score) : Option Score × Severity :=
  match metrics.v31.head?.or (metrics.v30.head?.or metrics.v2.head?) with
  | none => (none, .unknown)
  | some data =>
    (data.baseScore, (data.baseSeverity.map nvdSeverity).getD (classify scores data.baseScore))

def normaliseNvd (cve : NvdCve Score) : Except Panicked (Option (VulnerabilityRow Score)) :=
  if !Text.startsWith cve.id "CVE-" then .ok none
  else
    let description := pickEnglish cve.descriptions
    let summary : Except Panicked (Option String) :=
      match description with
      | none => .ok none
      | some text => (firstSentence text).map some
    summary.map fun summary =>
      let (cvssScore, severity) := extractSeverity scores cve.metrics
      some
        { id := cve.id
          source := "nvd"
          summary
          description
          severity
          cvssScore
          publishedAt := cve.published
          modifiedAt := cve.lastModified
          aliases := []
          references := cve.references }

variable {scores}

theorem normaliseNvd_some (usable : normaliseNvd scores cve = .ok (some vuln)) :
    vuln.id = cve.id ∧ vuln.modifiedAt = cve.lastModified ∧ vuln.aliases = [] := by
  unfold normaliseNvd at usable
  split at usable
  · cases usable
  simp only at usable
  revert usable
  cases (match pickEnglish cve.descriptions with
    | none => Except.ok none
    | some text => (firstSentence text).map some) with
  | error panic => exact nofun
  | ok summary =>
    intro usable
    cases Except.ok.inj usable
    exact ⟨rfl, rfl, rfl⟩

end Nvd

/-- The byte limit falls between two characters, or a sentence ends before it. -/
def Cuttable (text : String) : Prop :=
  (∃ front ∈ beforeSentenceEnd text.toList, utf8Length front < 200) ∨
    ∃ front, front <+: text.toList ∧ utf8Length front = min (utf8Length text.toList) 200

@[simp] theorem utf8Length_cons (c : Char) (rest : List Char) :
    utf8Length (c :: rest) = c.utf8Size + utf8Length rest := rfl

@[simp] theorem utf8Length_append (front rest : List Char) :
    utf8Length (front ++ rest) = utf8Length front + utf8Length rest := by
  simp [utf8Length]

theorem sliceTo_ok (bytes : Nat) (chars front : List Char) :
    sliceTo bytes chars = .ok front ↔ front <+: chars ∧ utf8Length front = bytes := by
  induction bytes, chars using sliceTo.induct generalizing front with
  | case1 chars | case2 bytes =>
    cases front with
    | nil => simp [sliceTo, utf8Length]
    | cons d others => simp [sliceTo, d.utf8Size_pos.ne']
  | case3 bytes c rest fits ih =>
    rw [sliceTo, if_pos fits]
    cases front with
    | nil =>
      cases sliceTo (bytes + 1 - c.utf8Size) rest <;> simp [Except.map, utf8Length]
    | cons d others =>
      have mapped : (sliceTo (bytes + 1 - c.utf8Size) rest).map (c :: ·) = .ok (d :: others) ↔
          d = c ∧ sliceTo (bytes + 1 - c.utf8Size) rest = .ok others := by
        cases sliceTo (bytes + 1 - c.utf8Size) rest <;> simp [Except.map, eq_comm]
      rw [mapped, ih, List.cons_prefix_cons, utf8Length_cons, and_assoc]
      refine and_congr_right fun same => and_congr_right fun _ => ?_
      rw [same]
      omega
  | case4 bytes c rest spills =>
    rw [sliceTo, if_neg spills]
    cases front with
    | nil => simp [utf8Length]
    | cons d others =>
      simp only [reduceCtorEq, List.cons_prefix_cons, utf8Length_cons, false_iff, not_and]
      rintro ⟨rfl, _⟩
      omega

theorem beforeSentenceEnd_cut (found : beforeSentenceEnd chars = some front) :
    front ++ ['.'] <+: chars := by
  induction chars using beforeSentenceEnd.induct generalizing front with
  | case1 rest =>
    cases found
    exact ⟨' ' :: rest, rfl⟩
  | case2 c rest other ih =>
    rw [beforeSentenceEnd] at found
    · obtain ⟨before, earlier, rfl⟩ := Option.map_eq_some_iff.mp found
      exact List.cons_prefix_cons.mpr ⟨rfl, ih earlier⟩
    · exact other
  | case3 => cases found

theorem sliceTo_map_ok {cut : String} : (sliceTo bytes chars).map String.ofList = .ok cut ↔
    cut.toList <+: chars ∧ utf8Length cut.toList = bytes := by
  rw [← sliceTo_ok]
  cases sliceTo bytes chars with
  | error panic => simp [Except.map]
  | ok front => simp [Except.map, ← String.toList_inj]

theorem firstSentence_cut (cut : firstSentence text = .ok sentence) :
    sentence.toList <+: text.toList ∧ utf8Length sentence.toList ≤ 200 := by
  have limit : utf8Length sentence.toList = min (utf8Length text.toList) 200 →
    utf8Length sentence.toList ≤ 200 :=
    fun size => size ▸ min_le_right _ _
  unfold firstSentence at cut
  split at cut
  · rename_i front found
    split at cut
    · rename_i early
      cases cut
      rw [String.toList_ofList]
      refine ⟨beforeSentenceEnd_cut found, ?_⟩
      rw [utf8Length_append, show utf8Length ['.'] = 1 from rfl]
      omega
    · exact (sliceTo_map_ok.mp cut).imp_right limit
  · exact (sliceTo_map_ok.mp cut).imp_right limit

theorem firstSentence_isOk_iff (text : String) : (∃ sentence, firstSentence text = .ok sentence) ↔
    Cuttable text := by
  have whole : (∃ sentence,
    (sliceTo (min (utf8Length text.toList) 200) text.toList).map String.ofList = .ok sentence) ↔
      ∃ front, front <+: text.toList ∧ utf8Length front = min (utf8Length text.toList) 200 := by
    simp only [sliceTo_map_ok]
    exact ⟨fun ⟨cut, found⟩ => ⟨cut.toList, found⟩, fun ⟨front, found⟩ => ⟨String.ofList front,
      by simpa using found⟩⟩
  unfold firstSentence Cuttable
  cases found : beforeSentenceEnd text.toList with
  | none => simpa using whole
  | some front =>
    by_cases early : utf8Length front < 200
    · simp [early]
    · simpa [early] using whole

/-- Nothing panics, and a first sentence is a prefix of at most 200 bytes, unless a description
would be cut within a character. -/
theorem normaliseNvd_total_iff {Score : Type} (scores : ScoreLib Score) (cve : NvdCve Score) (text : String) :
    ((∃ row, normaliseNvd scores cve = .ok row) ↔
      (Text.startsWith cve.id "CVE-" = true → ∀ text ∈ pickEnglish cve.descriptions, Cuttable text)) ∧
    ((∃ sentence, firstSentence text = .ok sentence ∧ sentence.toList <+: text.toList ∧
      utf8Length sentence.toList ≤ 200) ↔ Cuttable text) := by
  constructor
  · unfold normaliseNvd
    cases Text.startsWith cve.id "CVE-" with
    | false => simp
    | true =>
      cases pickEnglish cve.descriptions with
      | none => simp [Except.map]
      | some text =>
        simp only [Bool.not_true, Bool.false_eq_true, if_false, forall_const, Option.mem_some_iff, forall_eq',
          ← firstSentence_isOk_iff]
        cases firstSentence text <;> simp [Except.map]
  · rw [← firstSentence_isOk_iff]
    exact ⟨fun ⟨sentence, cut, _⟩ => ⟨sentence, cut⟩, fun ⟨sentence, cut⟩ => ⟨sentence, cut,
      firstSentence_cut cut⟩⟩

/-- 67 signs of three bytes: the limit falls within the last one. -/
def euroSigns : String := String.ofList (List.replicate 67 '€')

theorem euro_signs_panic : firstSentence euroSigns = .error .notCharBoundary ∧ ∀ scores : ScoreLib Nat,
    normaliseNvd scores ⟨"CVE-1", none, none, [⟨"en", euroSigns⟩], [], ⟨[], [], []⟩⟩ =
      .error .notCharBoundary := by
  have cut : firstSentence euroSigns = .error .notCharBoundary := by decide +kernel
  have named : Text.startsWith "CVE-1" "CVE-" = true := by decide +kernel
  simp [normaliseNvd, named, pickEnglish, cut, Except.map]

end SpectonCr.VulnDb
