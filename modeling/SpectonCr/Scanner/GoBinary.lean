import SpectonCr.Scanner.Image

namespace SpectonCr.Scanner.GoBinary

open Storage

def goBuildinfoMagic : List UInt8 :=
  [0xFF, 0x20, 0x47, 0x6F, 0x20, 0x62, 0x75, 0x69, 0x6C, 0x64, 0x69, 0x6E, 0x66, 0x3A]

/-- `find_subslice`: what stands from the first occurrence of the needle on. -/
def findSubslice (needle : List UInt8) : List UInt8 → Option (List UInt8)
  | [] => none
  | byte :: rest =>
    if needle.isPrefixOf (byte :: rest) then some (byte :: rest) else findSubslice needle rest

/-- `read_uvarint` from a shift on, with what follows the number. -/
def readUvarint : Nat → Nat → List UInt8 → Option (Nat × List UInt8)
  | _, _, [] => none
  | shift, result, byte :: rest =>
    let next := result + byte.toNat % 128 * 2 ^ shift % 2 ^ 64
    if byte.toNat < 128 then some (next, rest)
    else if 63 < shift + 7 then none
    else readUvarint (shift + 7) next rest

/-- `read_uvarint_string`. A length beyond the bytes gives nothing; one that overflows `usize` stops
the process. -/
def readUvarintString (bytes : List UInt8) : Option (String × List UInt8) :=
  (readUvarint 0 0 bytes).bind fun (len, rest) =>
    if rest.length < len then none
    else (String.fromUTF8? ⟨(rest.take len).toArray⟩).map fun text => (text, rest.drop len)

/-- The inline module list of the build information. -/
def modinfo (contents : Bytes) : Option String :=
  if looksLikeBinary contents then
    match (findSubslice goBuildinfoMagic contents.toList).map (List.drop goBuildinfoMagic.length) with
    | some (_ :: flags :: body) =>
      if flags &&& 2 = 0 then none
      else (readUvarintString body).bind fun (_, rest) => (readUvarintString rest).map Prod.fst
    | _ => none
  else none

/-- The module and version that a line names. -/
def moduleOf (line : String) : Option (String × String) :=
  let named : Option (String × String) := match Text.split line '\t' with
    | kind :: name :: rest =>
      if kind = "path" then some (Text.trim name, "main")
      else if kind = "mod" || kind = "dep" then
        rest.head?.map fun version => (Text.trim name, Text.trim version)
      else none
    | _ => none
  named.filter fun found => found.1 ≠ "" && !found.1.toList.any Text.isWhitespace

/-- `parse_modinfo`: a pair of name and version is emitted once. -/
def parseModinfo (seen : List (String × String)) : List String → List Component
  | [] => []
  | line :: rest =>
    match moduleOf line with
    | none => parseModinfo seen rest
    | some found =>
      if seen.contains found then parseModinfo seen rest
      else ⟨found.1, found.2, "go", "pkg:golang/" ++ found.1 ++ "@" ++ found.2⟩ ::
        parseModinfo (found :: seen) rest

def parse (contents : Bytes) : List Component :=
  match modinfo contents with
  | none => []
  | some blob => parseModinfo [] (Text.split blob '\n')

/-- The build information names a module. -/
def NamesModule (contents : Bytes) : Prop :=
  ∃ blob, modinfo contents = some blob ∧ ∃ line ∈ Text.split blob '\n', moduleOf line ≠ none

theorem parseModinfo_eq_nil_iff (lines : List String) :
    parseModinfo [] lines = [] ↔ ∀ line ∈ lines, moduleOf line = none := by
  induction lines with
  | nil => simp [parseModinfo]
  | cons line rest ih =>
    rw [parseModinfo]
    cases found : moduleOf line with
    | none => simp [found, ih]
    | some pair => simp [found]

theorem parse_ne_nil_iff (contents : Bytes) : parse contents ≠ [] ↔ NamesModule contents := by
  unfold parse NamesModule
  cases modinfo contents with
  | none => simp
  | some blob => simp [parseModinfo_eq_nil_iff]

theorem looksLikeBinary_of_names (names : NamesModule contents) : looksLikeBinary contents = true := by
  obtain ⟨blob, read, _⟩ := names
  unfold modinfo at read
  split at read
  · assumption
  · cases read

/-- The parsers with the one of binaries as it is. -/
def withBinaries (parsers : Parsers) : Parsers := { parsers with goBinary := parse }

theorem components_of_not_interesting (parsers : Parsers) (skipped : isInteresting path = false) :
    components parsers path contents =
      if isLikelyBinaryPath path && looksLikeBinary contents then parsers.goBinary contents
      else [] := by
  simp only [isInteresting, Bool.or_eq_false_iff] at skipped
  obtain ⟨⟨⟨⟨⟨⟨dpkg, apk⟩, rpm⟩, npm⟩, cargo⟩, pypi⟩, go⟩ := skipped
  simp only [components, dpkg, apk, rpm, npm, cargo, pypi, go, Bool.false_eq_true, if_false]

/-- Every file in which a parser would find a package is read, except the Go binaries. -/
theorem filter_hides_only_binaries (parsers : Parsers) (layerDigest path : String) (contents : Bytes) :
    (dispatch (withBinaries parsers) layerDigest path contents ≠ [] → isInteresting path = true) ↔
      (isInteresting path = true ∨ isLikelyBinaryPath path = false ∨ ¬NamesModule contents) := by
  have found : dispatch (withBinaries parsers) layerDigest path contents ≠ [] ↔
      components (withBinaries parsers) path contents ≠ [] := by simp [dispatch]
  rw [found]
  cases interesting : isInteresting path with
  | true => simp
  | false =>
    rw [components_of_not_interesting _ interesting]
    cases likely : isLikelyBinaryPath path with
    | false => simp
    | true =>
      simp only [Bool.true_and, Bool.false_eq_true, imp_false, not_not, false_or, reduceCtorEq]
      constructor
      · intro empty names
        rw [if_pos (looksLikeBinary_of_names names)] at empty
        exact (parse_ne_nil_iff contents).mpr names empty
      · intro unnamed
        split
        · exact not_not.mp fun some => unnamed ((parse_ne_nil_iff contents).mp some)
        · rfl

/-- An ELF file with the build information of one module. -/
def serverBinary : Bytes :=
  ⟨([0x7F, 0x45, 0x4C, 0x46] ++ goBuildinfoMagic ++ [8, 2, 0, 8] ++ "path\tapp".toUTF8.toList).toArray⟩

/-- A module in a binary under `app/` is never read. -/
theorem server_binary_hidden :
    (dispatch (withBinaries ⟨fun _ => [], fun _ => [], fun _ => [], fun _ => [], fun _ => [],
      fun _ => [], fun _ => []⟩) "sha256:l" "app/server" serverBinary).length = 1 ∧
      isInteresting "app/server" = false := by
  decide +kernel

end SpectonCr.Scanner.GoBinary
