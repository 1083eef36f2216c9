import SpectonCr.Registry.Manifests

namespace SpectonCr.Registry

open Storage

structure UploadRef where
  (tenant project name uuid : String)

def UploadRef.object (params : UploadRef) : StorePath :=
  .ofString (uploadPath params.tenant params.project params.name params.uuid)

def UploadRef.blob (params : UploadRef) (digest : String) : StorePath :=
  .ofString (blobPath params.tenant params.project params.name digest)

def UploadRef.authorize (params : UploadRef) (claims : TokenClaims) : Except RegistryError Unit :=
  Registry.authorize claims params.tenant params.project params.name .push

def UploadRef.location (params : UploadRef) : String :=
  "/v2/" ++ params.tenant ++ "/" ++ params.project ++ "/" ++ params.name ++ "/blobs/uploads/" ++ params.uuid

structure UploadAccepted where
  (location dockerUploadUuid range : String)

private def uploadAnswer (params : UploadRef) (range : String) : Except Failure UploadAccepted :=
  if isHeaderValue params.location && isHeaderValue params.uuid then
    .ok ⟨params.location, params.uuid, range⟩
  else .error .panicked

/-- `initiate_blob_upload`; `params.uuid` is the identifier it draws. -/
def initiateBlobUpload (claims : TokenClaims) (params : UploadRef) (store : ObjectStore) :
    Except Failure UploadAccepted × ObjectStore :=
  match params.authorize claims with
  | .error error => (.error (.refused error), store)
  | .ok () => (uploadAnswer params "0-0", store.insert params.object ByteArray.empty)

def uploadBlobChunk (claims : TokenClaims) (params : UploadRef) (body : Bytes)
    (store : ObjectStore) : Except Failure UploadAccepted × ObjectStore :=
  match params.authorize claims with
  | .error error => (.error (.refused error), store)
  | .ok () =>
    match store.lookup params.object with
    | none => (.error (.refused .blobUploadInvalid), store)
    | some existing =>
      let combined := existing ++ body
      (uploadAnswer params ("0-" ++ toString (combined.size - 1)), store.insert params.object combined)

/-- The answer to a finished upload. -/
def completeAnswer (params : UploadRef) (digest : String) (audit : Except String Unit) :
    Except Failure Created :=
  let location := "/v2/" ++ params.tenant ++ "/" ++ params.project ++ "/" ++ params.name ++
    "/blobs/" ++ digest
  if !(isHeaderValue location && isHeaderValue digest) then .error .panicked
  else match audit with
    | .error reason => .error (.refused (.auditUnavailable reason))
    | .ok () => .ok ⟨digest, location⟩

def completeBlobUpload (sha : Sha256) (claims : TokenClaims) (params : UploadRef)
    (digest : Option String) (body : Bytes) (audit : Except String Unit) (store : ObjectStore) :
    Except Failure Created × ObjectStore :=
  match params.authorize claims with
  | .error error => (.error (.refused error), store)
  | .ok () =>
    match digest with
    | none => (.error (.refused (.digestInvalid "sha256:..." "<missing>")), store)
    | some expected =>
      match store.lookup params.object with
      | none => (.error (.refused .blobUploadInvalid), store)
      | some existing =>
        let data := existing ++ body
        let actual := sha.digest data
        if actual ≠ expected then (.error (.refused (.digestInvalid expected actual)), store)
        else
          (completeAnswer params expected audit,
            (store.insert (params.blob expected) data).erase params.object)

/-- A request to one of the upload handlers. -/
inductive UploadEvent where
  | initiate (claims : TokenClaims) (params : UploadRef)
  | chunk (claims : TokenClaims) (params : UploadRef) (body : Bytes)
  | complete (claims : TokenClaims) (params : UploadRef) (digest : Option String) (body : Bytes)
      (audit : Except String Unit)

def UploadEvent.params : UploadEvent → UploadRef
  | .initiate _ params => params
  | .chunk _ params _ => params
  | .complete _ params _ _ _ => params

def UploadEvent.step (sha : Sha256) (store : ObjectStore) : UploadEvent → ObjectStore
  | .initiate claims params => (initiateBlobUpload claims params store).2
  | .chunk claims params body => (uploadBlobChunk claims params body store).2
  | .complete claims params digest body audit =>
    (completeBlobUpload sha claims params digest body audit store).2

theorem UploadEvent.step_cases (sha : Sha256) (store : ObjectStore) (event : UploadEvent) :
    event.step sha store = store ∨ (∃ data, event.step sha store = store.insert event.params.object data) ∨
      ∃ data, event.step sha store =
        (store.insert (event.params.blob (sha.digest data)) data).erase event.params.object := by
  cases event with
  | initiate claims params =>
    simp only [step, initiateBlobUpload, UploadEvent.params]
    split
    · exact .inl rfl
    · exact .inr (.inl ⟨_, rfl⟩)
  | chunk claims params body =>
    simp only [step, uploadBlobChunk, UploadEvent.params]
    split
    · exact .inl rfl
    · split
      · exact .inl rfl
      · exact .inr (.inl ⟨_, rfl⟩)
  | complete claims params digest body audit =>
    simp only [step, completeBlobUpload, UploadEvent.params]
    split
    · exact .inl rfl
    split
    · exact .inl rfl
    split
    · exact .inl rfl
    split
    · exact .inl rfl
    · rename_i verified
      rw [← not_not.mp verified]
      exact .inr (.inr ⟨_, rfl⟩)

end SpectonCr.Registry
