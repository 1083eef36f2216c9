import SpectonCr.VulnDb.Ranges

namespace SpectonCr.Dockerfile

open Scanner (Severity)
open VulnDb (Finding Comparator)

structure PackagePin where
  (package ecosystem currentVersion suggestedVersion : String)
  closesCves : List String
  installSnippet : Option String

def rank : Severity → Nat
  | .critical => 4
  | .high => 3
  | .medium => 2
  | .low => 1
  | .unknown => 0

def severityRankOfPin (_ : PackagePin) : Nat := 0

/-- `install_snippet`; the distribution family makes no difference. -/
def installSnippet (ecosystem package fixed : String) : Option String :=
  if ecosystem = "deb" then
    some ("RUN apt-get update && apt-get install -y --no-install-recommends " ++
      (package ++ "=" ++ (fixed ++ "* && rm -rf /var/lib/apt/lists/*")))
  else if ecosystem = "rpm" then some ("RUN microdnf install -y " ++ (package ++ "-" ++ fixed))
  else if ecosystem = "apk" then some ("RUN apk add --no-cache " ++ (package ++ "=" ++ fixed))
  else none

variable {Score : Type}

/-- A finding that counts, with its fixed version, on the entry of its package. -/
def extend (entry : Option PackagePin) (fix : Finding Score × String) : PackagePin :=
  let pin := entry.getD
    { package := fix.1.package
      ecosystem := fix.1.ecosystem
      currentVersion := fix.1.installedVersion
      suggestedVersion := fix.2
      closesCves := []
      installSnippet := installSnippet fix.1.ecosystem fix.1.package fix.2 }
  let pin := { pin with closesCves := pin.closesCves ++ [fix.1.id] }
  if severityRankOfPin pin < rank fix.1.severity then { pin with suggestedVersion := fix.2 }
  else pin

/-- The fixed version of a finding that is not suppressed. -/
def fixOf (finding : Finding Score) : Option (Finding Score × String) :=
  if finding.suppressed then none else finding.fixedVersion.map fun fixed => (finding, fixed)

def note (pins : Table (String × String) PackagePin) (fix : Finding Score × String) :
    Table (String × String) PackagePin :=
  pins.insert (fix.1.package, fix.1.ecosystem) (extend (pins.lookup (fix.1.package, fix.1.ecosystem)) fix)

def pinsOf (findings : List (Finding Score)) : Table (String × String) PackagePin :=
  (findings.filterMap fixOf).foldl note ∅

/-- The `package_pins` of `suggest`. -/
def suggest (findings : List (Finding Score)) : List PackagePin :=
  ((pinsOf findings).entries.map Sigma.snd).mergeSort fun one two =>
    two.closesCves.length < one.closesCves.length ||
      one.closesCves.length = two.closesCves.length && one.package ≤ two.package

/-- The findings behind the pin of a package, each with its fixed version. -/
def group (findings : List (Finding Score)) (key : String × String) : List (Finding Score × String) :=
  (findings.filterMap fixOf).filter fun fix => (fix.1.package, fix.1.ecosystem) = key

/-- The last fixed version of a finding with a known severity, and otherwise the first of all. -/
def lastRanked (first : String) (fixes : List (Finding Score × String)) : String :=
  fixes.foldl (fun version fix => if 0 < rank fix.1.severity then fix.2 else version) first

theorem lookup_foldl_note (pins : Table (String × String) PackagePin)
    (fixes : List (Finding Score × String)) (key : String × String) :
    (fixes.foldl note pins).lookup key =
      (fixes.filter fun fix => (fix.1.package, fix.1.ecosystem) = key).foldl
        (fun entry fix => some (extend entry fix)) (pins.lookup key) := by
  induction fixes generalizing pins with
  | nil => rfl
  | cons fix rest ih =>
    rw [List.foldl_cons, ih, note]
    by_cases same : (fix.1.package, fix.1.ecosystem) = key
    · subst same
      rw [AList.lookup_insert, List.filter_cons_of_pos (by simp), List.foldl_cons]
    · rw [AList.lookup_insert_ne (Ne.symm same), List.filter_cons_of_neg (by simpa using same)]

theorem extend_some (pin : PackagePin) (fix : Finding Score × String) : extend (some pin) fix =
      { pin with
        closesCves := pin.closesCves ++ [fix.1.id]
        suggestedVersion := if 0 < rank fix.1.severity then fix.2 else pin.suggestedVersion } := by
  by_cases ranked : 0 < rank fix.1.severity <;> simp [extend, severityRankOfPin, ranked]

theorem extend_none (fix : Finding Score × String) :
    extend none fix = ⟨fix.1.package, fix.1.ecosystem, fix.1.installedVersion, fix.2, [fix.1.id],
      installSnippet fix.1.ecosystem fix.1.package fix.2⟩ := by
  simp only [extend, Option.getD_none]
  split <;> rfl

theorem foldl_extend (pin : PackagePin) (fixes : List (Finding Score × String)) :
    fixes.foldl (fun entry fix => some (extend entry fix)) (some pin) =
      some { pin with
        closesCves := pin.closesCves ++ fixes.map fun fix => fix.1.id
        suggestedVersion := lastRanked pin.suggestedVersion fixes } := by
  induction fixes generalizing pin with
  | nil => simp [lastRanked]
  | cons fix rest ih =>
    rw [List.foldl_cons, extend_some, ih]
    simp [lastRanked]

/-- The pin of a package: the ids of all its findings, the version that was last set, and the
snippet of the first. -/
theorem mem_suggest {findings : List (Finding Score)} {pin : PackagePin} :
    pin ∈ suggest findings ↔ ∃ package ecosystem first rest,
      group findings (package, ecosystem) = first :: rest ∧
        pin = ⟨package, ecosystem, first.1.installedVersion, lastRanked first.2 rest,
          (first :: rest).map fun fix => fix.1.id, installSnippet ecosystem package first.2⟩ := by
  have entry : pin ∈ suggest findings ↔ ∃ key, (pinsOf findings).lookup key = some pin := by
    simp only [suggest, List.mem_mergeSort, List.mem_map]
    constructor
    · rintro ⟨⟨key, _⟩, member, rfl⟩
      exact ⟨key, AList.mem_lookup_iff.mpr member⟩
    · rintro ⟨key, found⟩
      exact ⟨⟨key, pin⟩, AList.mem_lookup_iff.mp found, rfl⟩
  rw [entry, Prod.exists]
  refine exists_congr fun package => exists_congr fun ecosystem => ?_
  rw [pinsOf, lookup_foldl_note, AList.lookup_empty]
  cases fixes : group findings (package, ecosystem) with
  | nil =>
    rw [group] at fixes
    rw [fixes]
    simp
  | cons first rest =>
    have own : first ∈ group findings (package, ecosystem) := fixes ▸ List.mem_cons_self
    have key := of_decide_eq_true (List.mem_filter.mp own).2
    obtain ⟨rfl, rfl⟩ := Prod.mk.inj key
    rw [group] at fixes
    rw [fixes, List.foldl_cons, extend_none, foldl_extend]
    simp [eq_comm]

theorem installSnippet_inj_iff (ecosystem package one two : String) :
    installSnippet ecosystem package one = installSnippet ecosystem package two ↔
      (ecosystem ∈ ["deb", "rpm", "apk"] → one = two) := by
  unfold installSnippet
  split
  · rename_i deb
    simp [deb]
  rename_i deb
  split
  · rename_i rpm
    simp [rpm]
  rename_i rpm
  split
  · rename_i apk
    simp [apk]
  · rename_i apk
    simp [deb, rpm, apk]

/-- The pin is at least every version that fixes one of its findings, and is what its snippet
installs. -/
structure Closes (compare : String → Comparator) (findings : List (Finding Score))
    (pin : PackagePin) : Prop where
  listed : pin.closesCves = (group findings (pin.package, pin.ecosystem)).map fun fix => fix.1.id
  reaches : ∀ fix ∈ group findings (pin.package, pin.ecosystem),
    (compare pin.ecosystem).AtMost fix.2 pin.suggestedVersion
  pinned : ∀ snippet, pin.installSnippet = some snippet →
    installSnippet pin.ecosystem pin.package pin.suggestedVersion = some snippet

/-- Every pin closes what it lists exactly when, for every package, the last fixed version of a
known severity is at least all others, and is the first one where there is a snippet. -/
theorem pins_close_iff (compare : String → Comparator) (findings : List (Finding Score)) :
    (∀ pin ∈ suggest findings, Closes compare findings pin) ↔
      ∀ package ecosystem first rest, group findings (package, ecosystem) = first :: rest →
        (∀ fix ∈ first :: rest, (compare ecosystem).AtMost fix.2 (lastRanked first.2 rest)) ∧
          (ecosystem ∈ ["deb", "rpm", "apk"] → lastRanked first.2 rest = first.2) := by
  constructor
  · intro all package ecosystem first rest grouped
    have closes := all _ (mem_suggest.mpr ⟨package, ecosystem, first, rest, grouped, rfl⟩)
    refine ⟨fun fix member => closes.reaches fix (grouped ▸ member), ?_⟩
    intro templated
    cases template : installSnippet ecosystem package first.2 with
    | none =>
      simp only [List.mem_cons, List.not_mem_nil, or_false] at templated
      rcases templated with rfl | rfl | rfl <;> simp [installSnippet] at template
    | some snippet =>
      refine (installSnippet_inj_iff ecosystem package _ _).mp ?_ templated
      exact (closes.pinned snippet template).trans template.symm
  · intro all pin member
    obtain ⟨package, ecosystem, first, rest, grouped, rfl⟩ := mem_suggest.mp member
    obtain ⟨reaches, same⟩ := all package ecosystem first rest grouped
    refine ⟨by rw [grouped], fun fix member => reaches fix (grouped ▸ member), ?_⟩
    intro snippet template
    exact ((installSnippet_inj_iff ecosystem package _ _).mpr same).trans template

/-- Two findings of one package: the fix of the second is suggested, the snippet has the first. -/
def twoFixes : List (Finding Unit) :=
  let finding id fixed severity : Finding Unit :=
    ⟨id, [], "openssl", "deb", "a", some fixed, severity, none, none, none, none, [], false⟩
  [finding "CVE-1" "c" .critical, finding "CVE-2" "b" .low]

theorem suggested_below_a_fix :
    (suggest twoFixes).map (fun pin => (pin.suggestedVersion, pin.closesCves)) = [("b", ["CVE-1", "CVE-2"])] ∧
    (suggest twoFixes).map PackagePin.installSnippet = [installSnippet "deb" "openssl" "c"] ∧
    VulnDb.letterMatchers.deb "c" "b" = .ok .gt := by
  decide +kernel

end SpectonCr.Dockerfile
