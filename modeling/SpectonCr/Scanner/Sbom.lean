import SpectonCr.Storage.Path

namespace SpectonCr.Scanner

open Storage

/-- A package as a parser finds it. -/
structure Component where
  (name version ecosystem purl : String)
  deriving DecidableEq

/-- A package with the layer it was found in. -/
structure Package extends Component where
  layerDigest : Option String
  deriving DecidableEq

/-- The parsers that are not modelled: what each finds in the bytes of a file. -/
structure Parsers where
  (rpm npm cargo pypiMetadata pypiRequirements go goBinary : Bytes → List Component)

/-- `split("\n\n")`. -/
def paragraphs : List Char → List (List Char)
  | '\n' :: '\n' :: rest => [] :: paragraphs rest
  | c :: rest =>
    match paragraphs rest with
    | [] => [[c]]
    | head :: tail => (c :: head) :: tail
  | [] => [[]]

/-- `str::lines`. -/
def lines (text : String) : List String :=
  let pieces := Text.split text '\n'
  let closed := pieces.dropLast.map fun line => (Text.stripSuffix line '\r').getD line
  closed ++ (pieces.getLast?.filter fun last => last ≠ "").toList

def splitWhitespace (text : String) : List String :=
  ((text.toList.splitOnP Text.isWhitespace).filter fun word => word ≠ []).map String.ofList

/-- What the lines of a paragraph have said so far. -/
structure Paragraph where
  (name version : Option String)
  statusInstalled : Bool

def dpkgLine (seen : Paragraph) (line : String) : Paragraph :=
  match Text.stripPrefix line "Package: " with
  | some value => { seen with name := some (Text.trim value) }
  | none => match Text.stripPrefix line "Version: " with
    | some value => { seen with version := some (Text.trim value) }
    | none => match Text.stripPrefix line "Status: " with
      | some value => { seen with statusInstalled := (splitWhitespace value).any (· = "installed") }
      | none => seen

def apkLine (seen : Paragraph) (line : String) : Paragraph :=
  match Text.stripPrefix line "P:" with
  | some value => { seen with name := some (Text.trim value) }
  | none => match Text.stripPrefix line "V:" with
    | some value => { seen with version := some (Text.trim value) }
    | none => seen

/-- A database of paragraphs, one package each. Bytes that are not UTF-8 have none. -/
def parseParagraphs (line : Paragraph → String → Paragraph) (start : Paragraph)
    (ecosystem purl : String) (contents : Bytes) : List Component :=
  match String.fromUTF8? contents with
  | none => []
  | some text => (paragraphs text.toList).filterMap fun paragraph =>
    match (lines (String.ofList paragraph)).foldl line start with
    | ⟨some name, some version, true⟩ =>
      some ⟨name, version, ecosystem, purl ++ name ++ "@" ++ version⟩
    | _ => none

def dpkgParse (contents : Bytes) : List Component :=
  parseParagraphs dpkgLine ⟨none, none, false⟩ "deb" "pkg:deb/debian/" contents

/-- Every paragraph of the database of `apk` is an installed package. -/
def apkParse (contents : Bytes) : List Component :=
  parseParagraphs apkLine ⟨none, none, true⟩ "apk" "pkg:apk/alpine/" contents

def isDpkgPath (path : String) : Bool := path = "var/lib/dpkg/status" || Text.endsWith path "/dpkg/status"

def isApkPath (path : String) : Bool :=
  path = "lib/apk/db/installed" || Text.endsWith path "/apk/db/installed"

def isRpmPath (path : String) : Bool :=
  Text.endsWith path "var/lib/rpm/Packages" || Text.endsWith path "var/lib/rpm/rpmdb.sqlite"

def isNpmPath (path : String) : Bool :=
  Text.endsWith path "package-lock.json" || Text.endsWith path "npm-shrinkwrap.json"

def isCargoPath (path : String) : Bool := Text.endsWith path "Cargo.lock"

def isPypiPath (path : String) : Bool :=
  Text.endsWith path "requirements.txt" || Text.endsWith path ".dist-info/METADATA" ||
    Text.endsWith path ".egg-info/PKG-INFO"

def isGoPath (path : String) : Bool := Text.endsWith path "go.sum"

def isLikelyBinaryPath (path : String) : Bool :=
  Text.startsWith path "app/" || Text.startsWith path "usr/local/bin/" ||
    Text.startsWith path "usr/bin/" || Text.startsWith path "go/bin/" ||
    Text.startsWith path "bin/"

def looksLikeBinary (contents : Bytes) : Bool := contents.toList.take 4 = [0x7F, 0x45, 0x4C, 0x46]

def pypiParse (parsers : Parsers) (path : String) (contents : Bytes) : List Component :=
  if Text.endsWith path ".dist-info/METADATA" || Text.endsWith path ".egg-info/PKG-INFO" then
    parsers.pypiMetadata contents
  else if Text.endsWith path "requirements.txt" then parsers.pypiRequirements contents
  else []

/-- What `dispatch` finds in a file, whatever the layer. -/
def components (parsers : Parsers) (path : String) (contents : Bytes) : List Component :=
  if isDpkgPath path then dpkgParse contents
  else if isApkPath path then apkParse contents
  else if isRpmPath path then parsers.rpm contents
  else if isNpmPath path then parsers.npm contents
  else if isCargoPath path then parsers.cargo contents
  else if isPypiPath path then pypiParse parsers path contents
  else if isGoPath path then parsers.go contents
  else if isLikelyBinaryPath path && looksLikeBinary contents then parsers.goBinary contents
  else []

/-- Every parser notes the layer it is called for. -/
def dispatch (parsers : Parsers) (layerDigest path : String) (contents : Bytes) : List Package :=
  (components parsers path contents).map fun found => ⟨found, some layerDigest⟩

/-- The paths whose bytes are read. -/
def isInteresting (path : String) : Bool :=
  isDpkgPath path || isApkPath path || isRpmPath path || isNpmPath path || isCargoPath path ||
    isPypiPath path || isGoPath path

end SpectonCr.Scanner
