import SpectonCr.Scanner.Sbom
import SpectonCr.Storage.Store

namespace SpectonCr.Scanner

open Storage

inductive ScanError where
  | image (message : String)
  | store (message : String)
  | db (message : String)
  | objectStore (message : String)
  | serde (message : String)
  | other (message : String)
  deriving DecidableEq

def ScanError.toString : ScanError → String
  | .image message => "image: " ++ message
  | .store message => "store: " ++ message
  | .db message => "db: " ++ message
  | .objectStore message => "object_store: " ++ message
  | .serde message => "serde: " ++ message
  | .other message => message

structure ImageLocator where
  (tenant project repository digest : String)

structure Platform where
  (architecture os : String)

structure ManifestDescriptor where
  digest : String
  platform : Option Platform

structure LayerDescriptor where
  (digest mediaType : String)
  deriving DecidableEq

structure ImageManifest where
  mediaType : Option String
  manifests : List ManifestDescriptor
  layers : List LayerDescriptor

inductive Compression where
  | gzip
  | zstd
  | plain
  deriving DecidableEq

/-- An entry of a tar archive; a path or contents that cannot be read are `none`. -/
structure TarEntry where
  regular : Bool
  path : Option String
  contents : Option Bytes

/-- The third-party functions the puller calls. -/
structure ImageLib where
  /-- `serde_json::from_slice::<Manifest>`, with the text of its error. -/
  parseManifest : Bytes → Except String ImageManifest
  /-- The text of the store's error for an object that is not there. -/
  notFound : StorePath → String
  /-- Whether `zstd::stream::Decoder::new` accepts the data. -/
  zstdAccepts : Bytes → Bool
  /-- `tar::Archive::entries` over the decoded data; an entry that cannot be read is `none`. -/
  untar : Compression → Bytes → Except String (List (Option TarEntry))

/-- A regular file of a layer, under its path without the leading `./`. -/
structure File where
  path : String
  contents : Bytes
  deriving DecidableEq

def maxLayerBytes : Nat := 1024 * 1024 * 512

section Puller

variable (lib : ImageLib) (objects : ObjectStore)

def getObject (path : StorePath) : Except ScanError Bytes :=
  match objects.lookup path with
  | some data => .ok data
  | none => .error (.objectStore (lib.notFound path))

def fetchBlob (loc : ImageLocator) (digest : String) : Except ScanError Bytes :=
  getObject lib objects (.ofString (blobPath loc.tenant loc.project loc.repository digest))

def fetchManifestBytes (loc : ImageLocator) (reference : String) : Except ScanError Bytes :=
  getObject lib objects (.ofString (manifestPath loc.tenant loc.project loc.repository reference))

def ImageManifest.isIndex (manifest : ImageManifest) : Bool :=
  (manifest.mediaType.any fun mediaType =>
    Text.contains mediaType "image.index" || Text.contains mediaType "manifest.list") ||
    !manifest.manifests.isEmpty

def ManifestDescriptor.isDefault (descriptor : ManifestDescriptor) : Bool :=
  descriptor.platform.any fun platform => platform.os = "linux" && platform.architecture = "amd64"

/-- `resolve_layers`: an index is followed to its linux/amd64 manifest. -/
def resolveLayers (loc : ImageLocator) : Except ScanError (List LayerDescriptor) := do
  let bytes ← fetchManifestBytes lib objects loc loc.digest
  let manifest ← (lib.parseManifest bytes).mapError .serde
  if manifest.isIndex then
    match manifest.manifests.find? ManifestDescriptor.isDefault with
    | none => .error (.image "index has no linux/amd64 manifest")
    | some pick =>
      let sub ← fetchManifestBytes lib objects loc pick.digest
      let subManifest ← (lib.parseManifest sub).mapError .serde
      return subManifest.layers
  else return manifest.layers

end Puller

def compressionOf (mediaType : String) : Option Compression :=
  if Text.contains mediaType "gzip" || Text.contains mediaType "tar+gzip" then some .gzip
  else if Text.contains mediaType "zstd" then some .zstd
  else if Text.contains mediaType "tar" then some .plain
  else none

/-- `trim_start_matches("./")`. -/
def trimDotSlash : List Char → List Char
  | '.' :: '/' :: rest => trimDotSlash rest
  | chars => chars

/-- The regular file an entry holds, when it can be read. -/
def TarEntry.file (entry : TarEntry) : Option File :=
  match entry.regular, entry.path, entry.contents with
  | true, some path, some contents => some ⟨String.ofList (trimDotSlash path.toList), contents⟩
  | _, _, _ => none

/-- The regular files of a layer. A media type that is not known, and data that `zstd` does not
accept, give none. -/
def layerFiles (lib : ImageLib) (layer : LayerDescriptor) (data : Bytes) : Except ScanError (List File) :=
  match compressionOf layer.mediaType with
  | none => .ok []
  | some compression =>
    if compression = .zstd && !lib.zstdAccepts data then .ok []
    else match lib.untar compression data with
      | .error reason => .error (.image ("tar entries: " ++ reason))
      | .ok entries => .ok (entries.filterMap fun entry => entry.bind TarEntry.file)

/-- `walk_layer`: the files that are handed to the visitor. -/
def walkLayer (lib : ImageLib) (layer : LayerDescriptor) (data : Bytes) : Except ScanError (List File) :=
  (layerFiles lib layer data).map fun files => files.filter fun file => isInteresting file.path

/-- `walk_selected_layers` with the visitor that collects packages. -/
def walkSelectedLayers (lib : ImageLib) (parsers : Parsers) (objects : ObjectStore)
    (loc : ImageLocator) : List LayerDescriptor → Except ScanError (List Package)
  | [] => .ok []
  | layer :: rest => do
    let data ← fetchBlob lib objects loc layer.digest
    let files ← if data.size > maxLayerBytes then .ok [] else walkLayer lib layer data
    let packages := files.flatMap fun file => dispatch parsers layer.digest file.path file.contents
    return packages ++ (← walkSelectedLayers lib parsers objects loc rest)

end SpectonCr.Scanner
