import SpectonCr.Base.Hex

namespace SpectonCr.Storage

abbrev Bytes := ByteArray

/-- The SHA-256 function: thirty-two bytes for every input. -/
structure Sha256 where
  hash : Bytes → List UInt8
  size : ∀ data, (hash data).length = 32

def Sha256.digest (sha : Sha256) (data : Bytes) : String := "sha256:" ++ hexEncode (sha.hash data)

/-- The function that gives the listed hashes, and zeros elsewhere. -/
def Sha256.ofTable (table : List (Bytes × List UInt8))
    (sizes : ∀ row ∈ table, row.2.length = 32) : Sha256 where
  hash data := ((table.find? fun row => row.1 = data).map Prod.snd).getD (List.replicate 32 0)
  size data := by
    cases found : table.find? fun row => row.1 = data with
    | none => rfl
    | some row => exact sizes row (List.mem_of_find?_eq_some found)

def blobPath (tenant project repo digest : String) : String :=
  let hex := (Text.stripPrefix digest "sha256:").getD digest
  tenant ++ "/" ++ project ++ "/" ++ repo ++ "/blobs/sha256/" ++ hex

def manifestPath (tenant project repo reference : String) : String :=
  tenant ++ "/" ++ project ++ "/" ++ repo ++ "/manifests/" ++ reference

def tagLinkPath (tenant project repo tag : String) : String :=
  tenant ++ "/" ++ project ++ "/" ++ repo ++ "/tags/" ++ tag

def tagsPrefix (tenant project repo : String) : String := tenant ++ "/" ++ project ++ "/" ++ repo ++ "/tags/"

def uploadPath (tenant project repo uploadId : String) : String :=
  tenant ++ "/" ++ project ++ "/" ++ repo ++ "/uploads/" ++ uploadId

/-- The non-empty pieces between slashes. -/
def segments (text : String) : List String := (Text.split text '/').filter (· ≠ "")

/-- `object_store::path::Path`. Keys are compared part by part, and no part is empty. The percent
encoding is injective, so only `asRef` encodes. -/
structure StorePath where
  parts : List String
  nonempty : ∀ part ∈ parts, part ≠ ""
  deriving DecidableEq

/-- `Path::from`. -/
def StorePath.ofString (text : String) : StorePath :=
  ⟨segments text, fun _ member => by simpa using (List.mem_filter.mp member).2⟩

/-- The bytes `PathPart` percent-encodes, besides the non-ASCII ones. -/
def isReserved (byte : UInt8) : Bool :=
  byte < 0x20 || 0x7F ≤ byte || Char.ofNat byte.toNat ∈
      ['/', '\\', '\x7b', '^', '\x7d', '%', '\x60', ']', '"', '>', '[', '~', '<', '#', '|', '*', '?']

def encodePart (part : String) : String :=
  if part = "." then "%2E"
  else if part = ".." then "%2E%2E"
  else String.ofList (part.toUTF8.data.toList.flatMap fun byte =>
    if isReserved byte then '%' :: (hexByte byte).map Char.toUpper else [Char.ofNat byte.toNat])

/-- `Path::as_ref`: the encoded parts joined by slashes. -/
def StorePath.asRef (path : StorePath) : String := String.intercalate "/" (path.parts.map encodePart)

theorem segments_join (left right : String) :
    segments (left ++ "/" ++ right) = segments left ++ segments right := by
  have parts : (left ++ "/" ++ right).toList = left.toList ++ '/' :: right.toList := by simp
  simp [segments, Text.split_join parts]

theorem segments_of_plain (plain : '/' ∉ text.toList) (present : text ≠ "") : segments text = [text] := by
  simp [segments, Text.split_of_not_mem plain, present]

theorem segments_append_of_plain (plain : '/' ∉ text.toList) (present : text ≠ "") (before after : String) :
    segments (before ++ "/" ++ text ++ "/" ++ after) = segments before ++ text :: segments after := by
  rw [segments_join, segments_join, segments_of_plain plain present]
  simp

/-- The segments of a repository's own root. -/
def repoSegments (tenant project repo : String) : List String :=
  segments tenant ++ segments project ++ segments repo

/-- A name that is one segment of a path. -/
def Plain (name : String) : Prop := '/' ∉ name.toList ∧ name ≠ ""

instance (name : String) : Decidable (Plain name) := inferInstanceAs (Decidable (_ ∧ _))

theorem Plain.segments (plain : Plain name) : segments name = [name] := segments_of_plain plain.1 plain.2

/-- A repository whose three names are one segment each. -/
def PlainRepo (tenant project repo : String) : Prop := Plain tenant ∧ Plain project ∧ Plain repo

instance (tenant project repo : String) : Decidable (PlainRepo tenant project repo) :=
  inferInstanceAs (Decidable (_ ∧ _))

theorem PlainRepo.segments (plain : PlainRepo tenant project repo) :
    repoSegments tenant project repo = [tenant, project, repo] := by
  rw [repoSegments, plain.1.segments, plain.2.1.segments, plain.2.2.segments]
  rfl

private theorem repo_under (plain : '/' ∉ text.toList) (present : text ≠ "") (rest : String) :
    segments (tenant ++ "/" ++ project ++ "/" ++ repo ++ "/" ++ text ++ "/" ++ rest) =
      repoSegments tenant project repo ++ text :: segments rest := by
  rw [segments_append_of_plain plain present, segments_join, segments_join, repoSegments]

@[simp] theorem segments_manifestPath (tenant project repo reference : String) :
    segments (manifestPath tenant project repo reference) =
      repoSegments tenant project repo ++ "manifests" :: segments reference := by
  rw [manifestPath, show ("/manifests/" : String) = "/" ++ "manifests" ++ "/" by decide]
  simp only [← String.append_assoc]
  exact repo_under (by decide) (by decide) reference

@[simp] theorem segments_tagLinkPath (tenant project repo tag : String) :
    segments (tagLinkPath tenant project repo tag) =
      repoSegments tenant project repo ++ "tags" :: segments tag := by
  rw [tagLinkPath, show ("/tags/" : String) = "/" ++ "tags" ++ "/" by decide]
  simp only [← String.append_assoc]
  exact repo_under (by decide) (by decide) tag

@[simp] theorem segments_tagsPrefix (tenant project repo : String) :
    segments (tagsPrefix tenant project repo) = repoSegments tenant project repo ++ ["tags"] := by
  have layout : tagsPrefix tenant project repo = tagLinkPath tenant project repo "" := by
    simp [tagsPrefix, tagLinkPath]
  rw [layout, segments_tagLinkPath]
  rfl

@[simp] theorem segments_uploadPath (tenant project repo uploadId : String) :
    segments (uploadPath tenant project repo uploadId) =
      repoSegments tenant project repo ++ "uploads" :: segments uploadId := by
  rw [uploadPath, show ("/uploads/" : String) = "/" ++ "uploads" ++ "/" by decide]
  simp only [← String.append_assoc]
  exact repo_under (by decide) (by decide) uploadId

/-- The part of a digest that names its blob object. -/
def blobHex (digest : String) : String := (Text.stripPrefix digest "sha256:").getD digest

@[simp] theorem segments_blobPath (tenant project repo digest : String) :
    segments (blobPath tenant project repo digest) =
      repoSegments tenant project repo ++ "blobs" :: "sha256" :: segments (blobHex digest) := by
  have layout : blobPath tenant project repo digest =
      tenant ++ "/" ++ project ++ "/" ++ repo ++ "/" ++ "blobs" ++ "/" ++
        ("sha256" ++ "/" ++ blobHex digest) := by
    rw [blobPath, ← blobHex, show ("/blobs/sha256/" : String) =
      "/" ++ "blobs" ++ "/" ++ "sha256" ++ "/" by decide]
    simp only [String.append_assoc]
  rw [layout, repo_under (by decide) (by decide), segments_join,
    show segments "sha256" = ["sha256"] from segments_of_plain (by decide) (by decide)]
  rfl

@[simp] theorem blobHex_digest (hex : String) : blobHex ("sha256:" ++ hex) = hex := by
  simp [blobHex]

open StorePath

section parts

variable {tenant project repo : String} (plain : PlainRepo tenant project repo)
include plain

theorem parts_manifestPath (reference : String) :
    (ofString (manifestPath tenant project repo reference)).parts =
      tenant :: project :: repo :: "manifests" :: segments reference := by
  simp only [ofString, segments_manifestPath, plain.segments]
  rfl

theorem parts_tagLinkPath (tag : String) : (ofString (tagLinkPath tenant project repo tag)).parts =
      tenant :: project :: repo :: "tags" :: segments tag := by
  simp only [ofString, segments_tagLinkPath, plain.segments]
  rfl

theorem parts_uploadPath (uploadId : String) : (ofString (uploadPath tenant project repo uploadId)).parts =
      tenant :: project :: repo :: "uploads" :: segments uploadId := by
  simp only [ofString, segments_uploadPath, plain.segments]
  rfl

theorem parts_blobPath (digest : String) : (ofString (blobPath tenant project repo digest)).parts =
      tenant :: project :: repo :: "blobs" :: "sha256" :: segments (blobHex digest) := by
  simp only [ofString, segments_blobPath, plain.segments]
  rfl

end parts

theorem ofString_eq_iff : ofString first = ofString second ↔ segments first = segments second := by
  simp [ofString]

variable (sha : Sha256) (data : Bytes)

theorem Sha256.digest_plain : Plain (sha.digest data) := by
  constructor
  · simp only [digest, String.toList_append, List.mem_append, not_or]
    exact ⟨by decide, fun member => (hexEncode_plain member).2.1 rfl⟩
  · intro empty
    have chars := congrArg String.toList empty
    simp [digest] at chars

@[simp] theorem Sha256.segments_digest : segments (sha.digest data) = [sha.digest data] :=
  (sha.digest_plain data).segments

theorem Sha256.hex_plain : Plain (hexEncode (sha.hash data)) := by
  constructor
  · intro member
    exact (hexEncode_plain member).2.1 rfl
  · intro empty
    have size := congrArg List.length (congrArg String.toList empty)
    simp [hexEncode, sha.size] at size

theorem Sha256.trim_digest : Text.trim (sha.digest data) = sha.digest data := by
  apply Text.trim_of_no_whitespace
  intro c member
  simp only [digest, String.toList_append, List.mem_append] at member
  rcases member with label | hex
  · have clean : ("sha256:".toList.all fun c => !Text.isWhitespace c) = true := by decide
    have outside := List.all_eq_true.mp clean c label
    rwa [Bool.not_eq_true'] at outside
  · exact (hexEncode_plain hex).1

end SpectonCr.Storage
