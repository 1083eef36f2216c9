import SpectonCr.Registry.Manifests

namespace SpectonCr.Registry

open Storage Gc

/-- The local read of `head_manifest` and `get_manifest`. -/
def localManifest (store : ObjectStore) (params : ManifestRef) : Except RegistryError Bytes :=
  (resolveManifestPath store params).bind fun path =>
    match store.lookup (.ofString path) with
    | some bytes => .ok bytes
    | none => .error (.manifestUnknown params.reference)

theorem localManifest_digest {store : ObjectStore} {params : ManifestRef} {body : Bytes}
    (digest : Text.startsWith (normalizedRef params.reference) "sha256:" = true) :
    localManifest store params = .ok body ↔
      store.lookup (params.object (normalizedRef params.reference)) = some body := by
  simp only [localManifest, resolveManifestPath, digest, ↓reduceIte, ManifestRef.object, Except.bind]
  cases store.lookup (.ofString _) <;> simp

/-- A reference that reads as a tag was also pushed as one. -/
theorem startsWith_of_normalizedRef (tag : Text.startsWith (normalizedRef reference) "sha256:" = false) :
    normalizedRef reference = reference ∧ Text.startsWith reference "sha256:" = false := by
  cases dashed : Text.stripPrefix reference "sha256-" with
  | none =>
    have same : normalizedRef reference = reference := by simp [normalizedRef, dashed]
    exact ⟨same, same ▸ tag⟩
  | some rest => simp [normalizedRef, dashed] at tag

theorem localManifest_tag {sha : Sha256} {store : ObjectStore} {params : ManifestRef}
    {body : Bytes} (tag : Text.startsWith (normalizedRef params.reference) "sha256:" = false) :
    localManifest (storeManifest params (sha.digest body) body store) params = .ok body := by
  obtain ⟨_, pushed⟩ := startsWith_of_normalizedRef tag
  have link : (storeManifest params (sha.digest body) body store).lookup
      (params.tagLink params.reference) = some (sha.digest body).toByteArray := by
    unfold storeManifest
    rw [if_neg (by simp [pushed])]
    exact AList.lookup_insert _
  have resolved : resolveManifestPath (storeManifest params (sha.digest body) body store) params =
      .ok (manifestPath params.tenant params.project params.name (sha.digest body)) := by
    simp only [resolveManifestPath, tag, Bool.false_eq_true, ↓reduceIte, link,
      fromUTF8?_toByteArray, sha.trim_digest]
  have found := lookup_storeManifest_object params (sha.digest body) body store
  rw [ManifestRef.object] at found
  simp only [localManifest, resolved, Except.bind, found]

/-- An accepted push is read back exactly when its reference reads as a tag, names the object the
body was stored as, or named one that held the same body. -/
theorem localManifest_putManifest_iff {env : Env} {request : ManifestRequest} {body : Bytes}
    {backend after : Backend} {created : Created}
    (accepted : putManifest env request body backend = (.ok created, after)) :
    localManifest after.store request.params = .ok body ↔
      (Text.startsWith (normalizedRef request.params.reference) "sha256:" = false ∨
        request.params.object (normalizedRef request.params.reference) =
          request.params.object (env.sha.digest body) ∨
        backend.store.lookup
          (request.params.object (normalizedRef request.params.reference)) = some body) := by
  rw [putManifest_ok accepted]
  cases digest : Text.startsWith (normalizedRef request.params.reference) "sha256:" with
  | false => simp [localManifest_tag digest]
  | true =>
    rw [localManifest_digest digest]
    by_cases same : request.params.object (normalizedRef request.params.reference) =
        request.params.object (env.sha.digest body)
    · rw [same]
      simp [lookup_storeManifest_object]
    · rw [lookup_storeManifest_ne same (request.params.object_ne_tagLink _ _)]
      simp [same]

def emptyObject : Bytes := "\x7b\x7d".toUTF8

/-- An environment that knows one body, the empty object. -/
def emptyObjectEnv : Env where
  toTtlLib := Ephemeral.durationsOnly
  gcPool := true
  sha := .ofTable
    [(emptyObject, [68, 19, 111, 163, 85, 179, 103, 138, 17, 70, 173, 22, 247, 232, 100, 158, 148,
      251, 79, 194, 31, 231, 126, 131, 16, 192, 96, 246, 28, 170, 255, 138])] (by decide)
  parse body := if body = emptyObject then .ok (.obj []) else .error "expected value"

/-- An administrator's push to `acme/web/app`. -/
def pushOf (reference : String) : ManifestRequest where
  claims := adminClaims
  params := ⟨"acme", "web", "app", reference⟩
  now := 0
  audit := .ok ()
  ttl := none
  reportsAbsent := true

/-- The tag `cosign` stores the signature of an image under. -/
def cosignTag : String := "sha256-44136fa355b3678a1146ad16f7e8649e94fb4fc21fe77e8310c060f61caaff8a.sig"

/-- The answer to a push of the empty object. -/
def emptyObjectCreated : Created where
  dockerContentDigest := "sha256:44136fa355b3678a1146ad16f7e8649e94fb4fc21fe77e8310c060f61caaff8a"
  location := "/v2/acme/web/app/manifests/sha256:" ++
    "44136fa355b3678a1146ad16f7e8649e94fb4fc21fe77e8310c060f61caaff8a"

/-- Pushes answered with success and not found again: under a `cosign` tag, and under a digest that
is not the body's. -/
theorem pushed_reference_unreadable : [cosignTag, "sha256:00"].Forall fun reference =>
      (putManifest emptyObjectEnv (pushOf reference) emptyObject ⟨∅, .empty⟩).1 = .ok emptyObjectCreated ∧
        localManifest (putManifest emptyObjectEnv (pushOf reference) emptyObject ⟨∅, .empty⟩).2.store
          (pushOf reference).params = .error (.manifestUnknown reference) := by
  constructor <;> decide +kernel

theorem latest_read_back :
    localManifest (putManifest emptyObjectEnv (pushOf "latest") emptyObject ⟨∅, .empty⟩).2.store
      (pushOf "latest").params = .ok emptyObject := by
  have answered : (putManifest emptyObjectEnv (pushOf "latest") emptyObject ⟨∅, .empty⟩).1 =
      .ok emptyObjectCreated := by
    decide +kernel
  exact (localManifest_putManifest_iff (Prod.ext answered rfl)).mpr (.inl (by decide +kernel))

end SpectonCr.Registry
