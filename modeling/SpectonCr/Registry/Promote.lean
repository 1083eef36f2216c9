import SpectonCr.Admission.Evaluate
import SpectonCr.Registry.AuditLog

namespace SpectonCr.Registry

open Storage Gc

structure ImageRef where
  (tenant project repository reference : String)
  deriving DecidableEq

/-- `tenant/project/repo:tag` or `tenant/project/repo@sha256:…`. -/
def ImageRef.parse (text : String) : Except RegistryError ImageRef :=
  let pieces : Except RegistryError (String × String) :=
    match Text.splitOnce text '@' with
    | some pieces => .ok pieces
    | none =>
      match Text.rsplitOnce text ':' with
      | some (path, tag) =>
        if Text.contains path "/" then .ok (path, tag)
        else .error (.manifestInvalid
          ("invalid image ref '" ++ text ++ "' (expected tenant/project/repo:tag)"))
      | none => .error (.manifestInvalid
          ("invalid image ref '" ++ text ++ "' (missing :tag or @digest)"))
  pieces.bind fun (path, reference) =>
    let invalid : RegistryError := .manifestInvalid ("invalid image ref '" ++ text ++
      "' (expected tenant/project/repo:tag, got " ++ path ++ ")")
    match Text.split path '/' with
    | [tenant, project, repository] =>
      if tenant = "" ∨ project = "" ∨ repository = "" then .error invalid
      else .ok ⟨tenant, project, repository, reference⟩
    | _ => .error invalid

/-- An object key of the repository, by one of the layout functions. -/
def ImageRef.path (image : ImageRef) (layout : String → String → String → String → String)
    (name : String) : String :=
  layout image.tenant image.project image.repository name

inductive PromoteMode where
  | force
  | dryRun
  | onPolicyPass (policy : String)
  deriving DecidableEq

structure PromoteRequest where
  (source dest : ImageRef)
  includeSignatures : Bool
  mode : PromoteMode

structure PromoteOutcome where
  id : Uuid
  (srcDigest dstDigest state : String)
  (bytesCopied blobCount signaturesCopied : Nat)
  dryRun : Option Bool
  deriving DecidableEq

/-- The library functions: `serde_json::from_slice::<Value>`, and the text of the
store's error about an absent object. -/
structure PromoteLib where
  parse : Bytes → Except String Json
  missing : StorePath → String

/-- The registry's store, and the second one when promotion writes to another. -/
structure PromoteStores where
  store : ObjectStore
  dest : Option ObjectStore

def PromoteStores.target (stores : PromoteStores) : ObjectStore := stores.dest.getD stores.store

def PromoteStores.write (stores : PromoteStores) (path : StorePath) (bytes : Bytes) :
    PromoteStores :=
  match stores.dest with
  | none => { stores with store := stores.store.insert path bytes }
  | some dest => { stores with dest := some (dest.insert path bytes) }

section Copying

variable (lib : PromoteLib)

/-- A store's own copy and the reading and writing in its place have one effect. -/
def copyObject (source dest : String) (stores : PromoteStores) : Except RegistryError Nat × PromoteStores :=
  let sourcePath := StorePath.ofString source
  let destPath := StorePath.ofString dest
  if stores.dest.isNone ∧ source = dest then
    match stores.store.lookup sourcePath with
    | some bytes => (.ok bytes.size, stores)
    | none => (.error (.storage (lib.missing sourcePath)), stores)
  else
    match stores.target.lookup destPath with
    | some bytes => (.ok bytes.size, stores)
    | none =>
      match stores.store.lookup sourcePath with
      | some bytes => (.ok bytes.size, stores.write destPath bytes)
      | none => (.error (.manifestUnknown source), stores)

/-- The digest a reference names, and its manifest. -/
def resolveDigest (store : ObjectStore) (image : ImageRef) : Except RegistryError (String × Bytes) :=
  let digest : Except RegistryError String :=
    if Text.startsWith image.reference "sha256:" then .ok image.reference
    else match store.lookup (.ofString (image.path tagLinkPath image.reference)) with
      | none => .error (.tagUnknown image.reference)
      | some bytes => .ok (Text.trim (fromUtf8Lossy bytes))
  digest.bind fun digest =>
    match store.lookup (.ofString (image.path manifestPath digest)) with
    | none => .error (.manifestUnknown digest)
    | some bytes => .ok (digest, bytes)

/-- Where a referenced digest is kept: with the blobs, or with the manifests. -/
def referencedAt (store : ObjectStore) (image : ImageRef) (digest : String) :
    Option (String → String → String → String → String) :=
  if StorePath.ofString (image.path blobPath digest) ∈ store then some blobPath
  else if StorePath.ofString (image.path manifestPath digest) ∈ store then some manifestPath
  else none

/-- The loop over the referenced digests, with the bytes and objects so far. -/
def copyReferenced (src dst : ImageRef) : List String → Nat × Nat → PromoteStores →
    Except RegistryError (Nat × Nat) × PromoteStores
  | [], progress, stores => (.ok progress, stores)
  | digest :: rest, progress, stores =>
    match referencedAt stores.store src digest with
    | none => (.error (.blobUnknown digest), stores)
    | some layout =>
      andThen (copyObject lib (src.path layout digest) (dst.path layout digest) stores)
        fun copied stores => copyReferenced src dst rest (progress.1 + copied, progress.2 + 1) stores

/-- The loop over the digests a signature's manifest references. -/
def copySignatureBlobs (src dst : ImageRef) : List String → Nat → PromoteStores →
    Except RegistryError Nat × PromoteStores
  | [], bytesCopied, stores => (.ok bytesCopied, stores)
  | digest :: rest, bytesCopied, stores =>
    if StorePath.ofString (src.path blobPath digest) ∈ stores.store then
      andThen (copyObject lib (src.path blobPath digest) (dst.path blobPath digest) stores)
        fun copied stores => copySignatureBlobs src dst rest (bytesCopied + copied) stores
    else copySignatureBlobs src dst rest bytesCopied stores

/-- The tag that holds the signature of a digest. -/
def signatureTag (digest : String) : String :=
  "sha256-" ++ (Text.stripPrefix digest "sha256:").getD digest ++ ".sig"

/-- The digest of a stored signature's manifest, and the digests it references. -/
def signature? (store : ObjectStore) (src : ImageRef) (srcDigest : String) : Option (String × List String) :=
  match store.lookup (.ofString (src.path tagLinkPath (signatureTag srcDigest))) with
  | none => none
  | some link =>
    let sigDigest := Text.trim (fromUtf8Lossy link)
    match store.lookup (.ofString (src.path manifestPath sigDigest)) with
    | none => none
    | some manifest =>
      match lib.parse manifest with
      | .ok document => some (sigDigest, collectReferencedDigests document)
      | .error _ => some (sigDigest, [])

/-- The bytes copied so far, and whether there was a signature. -/
def copySignatures (src dst : ImageRef) (srcDigest : String) (bytesCopied : Nat)
    (stores : PromoteStores) : Except RegistryError (Nat × Nat) × PromoteStores :=
  match signature? lib stores.store src srcDigest with
  | none => (.ok (bytesCopied, 0), stores)
  | some (sigDigest, referenced) =>
    andThen (copySignatureBlobs lib src dst referenced bytesCopied stores) fun bytesCopied stores =>
        andThen (copyObject lib (src.path manifestPath sigDigest) (dst.path manifestPath sigDigest)
          stores) fun copied stores =>
            (.ok (bytesCopied + copied, 1), stores.write
              (.ofString (dst.path tagLinkPath (signatureTag srcDigest))) sigDigest.toUTF8)

def promote (id : Uuid) (request : PromoteRequest) (stores : PromoteStores) :
    Except RegistryError PromoteOutcome × PromoteStores :=
  let src := request.source
  let dst := request.dest
  match resolveDigest stores.store src with
  | .error error => (.error error, stores)
  | .ok (srcDigest, manifestBytes) =>
    match lib.parse manifestBytes with
    | .error reason => (.error (.manifestInvalid reason), stores)
    | .ok manifest =>
      let blobDigests := collectReferencedDigests manifest
      if request.mode = .dryRun then
        (.ok ⟨id, srcDigest, srcDigest, "dry_run", 0, blobDigests.length, 0, some true⟩, stores)
      else
        andThen (copyReferenced lib src dst blobDigests (0, 0) stores) fun progress stores =>
          andThen (copyObject lib (src.path manifestPath srcDigest)
            (dst.path manifestPath srcDigest) stores) fun copied stores =>
              andThen (if request.includeSignatures then
                  copySignatures lib src dst srcDigest (progress.1 + copied) stores
                else (.ok (progress.1 + copied, 0), stores)) fun signed stores =>
                  (.ok ⟨id, srcDigest, srcDigest, "done", signed.1, progress.2, signed.2, none⟩,
                    if Text.startsWith dst.reference "sha256:" then stores
                    else stores.write (.ofString (dst.path tagLinkPath dst.reference)) srcDigest.toUTF8)

end Copying

section Handler

open Admission

structure PromoteBody where
  (source dest : String)
  includeSignatures : Bool
  (mode policy : Option String)

def PromoteBody.promoteMode (body : PromoteBody) : PromoteMode :=
  if body.mode = some "dry_run" ∨ body.mode = some "dry-run" then .dryRun
  else if body.mode = some "on_policy_pass" then .onPolicyPass (body.policy.getD "")
  else .force

/-- The settings, and the answers of the policy table and of the scan store. -/
structure PromoteConfig where
  (promotionEnabled admissionEnabled : Bool)
  listTenant : Option (String → Except String (List AdmissionPolicy))
  scanStore : Option Scanner.ScanStore
  scanRead : Bool

/-- The admission check of `on_policy_pass`, on the digest of the source. -/
def policyGate (config : PromoteConfig) (now : Time) (source dest : ImageRef) (policy : String)
    (store : ObjectStore) (cache : DecisionCache) : Except RegistryError Unit × DecisionCache :=
  if !config.admissionEnabled then (.ok (), cache)
  else
    let digest : Except RegistryError String :=
      if Text.startsWith source.reference "sha256:" then .ok source.reference
      else match store.lookup (.ofString (source.path tagLinkPath source.reference)) with
        | none => .error (.tagUnknown source.reference)
        | some bytes => .ok (Text.trim (fromUtf8Lossy bytes))
    match digest with
    | .error error => (.error error, cache)
    | .ok digest =>
      match config.listTenant with
      | none => (.error (.internal "on_policy_pass requires Postgres"), cache)
      | some listTenant =>
        match listTenant dest.tenant with
        | .error reason => (.error (.internal reason), cache)
        | .ok policies =>
          let policies := if policy = "" then policies else policies.filter (·.name = policy)
          let scan := fetchScan config.scanStore config.scanRead digest
          let verdict := evaluate policies scan cache (.still now)
            ⟨dest.tenant, dest.project, dest.repository, digest, false, some true⟩
          match verdict.1 with
          | .block reason _ =>
            (.error (.manifestUnverified ("promote on_policy_pass failed: " ++ reason)), verdict.2)
          | _ => (.ok (), verdict.2)

/-- The handler up to its call of `promote`. -/
def promoteChecks (config : PromoteConfig) (claims : TokenClaims) (now : Time) (body : PromoteBody)
    (store : ObjectStore) (cache : DecisionCache) :
    Except RegistryError PromoteRequest × DecisionCache :=
  let parsed : Except RegistryError (ImageRef × ImageRef) :=
    if !config.promotionEnabled then
      .error (.forbidden "promotion disabled ([promotion] enabled=false)")
    else (ImageRef.parse body.source).bind fun source =>
      (ImageRef.parse body.dest).bind fun dest =>
        (authorize claims source.tenant source.project source.repository .pull).bind fun _ =>
          (authorize claims dest.tenant dest.project dest.repository .push).bind fun _ =>
            .ok (source, dest)
  match parsed with
  | .error error => (.error error, cache)
  | .ok (source, dest) =>
    match body.promoteMode with
    | .onPolicyPass policy =>
      andThen (policyGate config now source dest policy store cache) fun _ cache =>
        (.ok ⟨source, dest, body.includeSignatures, .force⟩, cache)
    | mode => (.ok ⟨source, dest, body.includeSignatures, mode⟩, cache)

def promoteEvent (claims : TokenClaims) (now : Time) (dest : ImageRef) (outcome : PromoteOutcome) :
    RegistryAuditEvent where
  timestamp := now
  eventType := "manifest.promote"
  subject := claims.sub
  tenant := dest.tenant
  project := dest.project
  repository := dest.repository
  reference := dest.reference
  digest := outcome.dstDigest
  sizeBytes := outcome.bytesCopied
  statusCode := 200
  durationMs := 0

structure PromoteState where
  stores : PromoteStores
  cache : DecisionCache
  log : RegistryAuditLog

/-- `promote_handler`; the answer of `record` is dropped. -/
def promoteHandler (lib : PromoteLib) (config : PromoteConfig) (call : AuditCall) (id : Uuid)
    (claims : TokenClaims) (now : Time) (body : PromoteBody) (state : PromoteState) :
    Except RegistryError PromoteOutcome × PromoteState :=
  match promoteChecks config claims now body state.stores.store state.cache with
  | (.error error, cache) => (.error error, { state with cache })
  | (.ok request, cache) =>
    match promote lib id request state.stores with
    | (.error error, stores) => (.error error, { state with stores, cache })
    | (.ok outcome, stores) =>
      (.ok outcome, ⟨stores, cache, (state.log.record call (promoteEvent claims now request.dest outcome)).2⟩)

end Handler

end SpectonCr.Registry
