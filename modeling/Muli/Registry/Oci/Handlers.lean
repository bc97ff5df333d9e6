/-
**The requests of the OCI registry.**
-/

import Muli.Registry.Oci.Storage

namespace Muli.Oci

open Interaction

abbrev OciProg (α : Type) := ExceptT Response (Prog OciCalls) α

def query (call : OciCall) : OciProg call.Answer := ExceptT.lift (Prog.perform (I := OciCalls) call)

def overQuota {α : Type} (p : Prog QuotaCalls α) : Prog OciCalls α :=
  p.translate fun call => Prog.perform (I := OciCalls) (.quota call)

def reserve (config : OciConfig) (bytes : ℕ) : OciProg Unit :=
  ExceptT.mk (overQuota (reserveQuota config.quotaStore config.tenantId bytes).run)

def adjust (config : OciConfig) (delta : ℤ) : OciProg Unit :=
  ExceptT.lift (overQuota (adjustQuotaUsage config.quotaStore config.tenantId delta))

/-- An error with its code. -/
def ociError (status : ℕ) (code message : String) : Response :=
  ⟨status, [("code", code), ("message", message)]⟩

def require (holds : Bool) (refusal : Response) : OciProg Unit :=
  if holds then pure () else throw refusal

def validateName (name : String) : OciProg Unit :=
  require (validateRepositoryName name) (ociError 400 "NAME_INVALID" "invalid repository name")

def validateRef (reference : String) : OciProg Unit :=
  require (validateReference reference) (ociError 400 "TAG_INVALID" "invalid reference")

def validateDigestParam (digest : String) : OciProg Unit :=
  require (validateDigest digest) (ociError 400 "DIGEST_INVALID" "invalid digest format")

/-- Refuse bytes that would exceed the quota; nothing is reserved. -/
def checkQuota (config : OciConfig) (bytes : ℕ) : OciProg Unit :=
  if !config.quotaStore then pure ()
  else do
    match ← query (.getQuota config.tenantId) with
    | .ok (some quota) =>
      require (quota.maxStorageBytes = 0 || quota.currentUsageBytes + bytes ≤ quota.maxStorageBytes)
        (errorJson 413 ("tenant quota exceeded: " ++ quota.currentUsageBytes.repr ++ " used of " ++
          quota.maxStorageBytes.repr ++ " allowed, " ++ bytes.repr ++ " requested"))
    | _ => pure ()

/-! ### Uploads -/

/-- Bytes that come with a request are appended to the upload. -/
def append (id : String) (body : Bytes) (failure : String) : OciProg Unit :=
  if body = [] then pure ()
  else do
    match ← query (.appendUpload id body) with
    | .ok _ => pure ()
    | .error (.blobTooLarge message) => throw (ociError 413 "SIZE_LIMIT" message)
    | .error _ => throw (ociError 500 "BLOB_UPLOAD_UNKNOWN" failure)

/-- Only bytes are checked against the quota. -/
def checkBody (config : OciConfig) (body : Bytes) : OciProg Unit :=
  if body = [] then pure () else checkQuota config body.length

/-- A blob of the tenant is mounted if the repository it is mounted from exists. -/
def mountBlob (name : String) : Option String → Option String → OciProg (Option Response)
  | some digest, some fromRepo => do
    validateDigestParam digest
    validateName fromRepo
    match ← query .listRepositories with
    | .error _ => throw (ociError 500 "BLOB_UPLOAD_UNKNOWN" "failed to list repositories")
    | .ok repos =>
      if fromRepo ∈ repos then
        match ← query (.hasBlob digest) with
        | .ok true => pure (some ⟨201, [("Location", "/v2/" ++ name ++ "/blobs/" ++ digest),
            ("Docker-Content-Digest", digest), ("Content-Length", "0")]⟩)
        | .ok false => pure none
        | .error _ => throw (ociError 500 "BLOB_UNKNOWN" "storage error during mount check")
      else pure none
  | _, _ => pure none

/-- Where the next request of an upload goes. -/
def uploadLocation (name id : String) : String := "/v2/" ++ name ++ "/blobs/uploads/" ++ id

/-- **Start an upload**, or mount a blob that is there. -/
def startUpload (config : OciConfig) (name : String) (mount fromRepo : Option String)
    (body : Bytes) : OciProg Response := do
  validateName name
  checkBody config body
  match ← mountBlob name mount fromRepo with
  | some response => pure response
  | none => do
    let id ← query .newUuid
    match ← query (.createUpload id) with
    | .error _ => throw (ociError 500 "BLOB_UPLOAD_UNKNOWN" "failed to create upload")
    | .ok _ => do
      append id body "failed to write upload data"
      pure ⟨202, [("Location", uploadLocation name id), ("Docker-Upload-UUID", id),
        ("Range", "0-0"), ("Content-Length", "0")]⟩

/-- Append to an upload. -/
def patchUpload (config : OciConfig) (name id : String) (body : Bytes) : OciProg Response := do
  validateName name
  checkBody config body
  match ← query (.uploadOffset id) with
  | .error _ => throw (ociError 404 "BLOB_UPLOAD_UNKNOWN" "upload not found")
  | .ok start => do
    match ← query (.appendUpload id body) with
    | .ok stop => pure ⟨202, [("Location", uploadLocation name id), ("Docker-Upload-UUID", id),
        ("Range", start.repr ++ "-" ++ (stop - 1).repr), ("Content-Length", "0")]⟩
    | .error (.blobTooLarge message) => throw (ociError 413 "SIZE_LIMIT" message)
    | .error _ => throw (ociError 500 "BLOB_UPLOAD_UNKNOWN" "failed to append data")

/-- Reserve the bytes of a new blob. It is stored already, so a refusal is only logged. -/
def accountBlob (config : OciConfig) (digest : String) : OciProg Unit := do
  match ← query (.blobSize digest) with
  | .error _ => pure ()
  | .ok size => do
    let _ ← ExceptT.lift (reserve config size).run
    pure ()

/-- A blob that was there already is not accounted again. -/
def accountNewBlob (config : OciConfig) (digest : String) : Except StorageError Bool → OciProg Unit
  | .ok false => accountBlob config digest
  | _ => pure ()

/-- **Finish an upload**, whose bytes must have the digest. -/
def completeUpload (config : OciConfig) (name id digest : String) (body : Bytes) :
    OciProg Response := do
  validateName name
  validateDigestParam digest
  checkBody config body
  append id body "failed to append final data"
  let found ← query (.hasBlob digest)
  match ← query (.completeUpload id digest) with
  | .ok _ => do
    accountNewBlob config digest found
    pure ⟨201, [("Location", "/v2/" ++ name ++ "/blobs/" ++ digest),
      ("Docker-Content-Digest", digest), ("Content-Length", "0")]⟩
  | .error (.invalidDigest message) => throw (ociError 400 "DIGEST_INVALID" message)
  | .error _ => throw (ociError 500 "BLOB_UPLOAD_UNKNOWN" "failed to complete upload")

/-! ### Manifests -/

/-- **Store a manifest** under its reference and its digest. -/
def putManifest (config : OciConfig) (name reference : String) (body : Bytes) :
    OciProg Response := do
  validateName name
  validateRef reference
  reserve config (2 * body.length)
  match ← query (.storeManifest name reference body) with
  | .ok _ => do
    -- the copy under the digest may fail
    let _ ← query (.storeManifest name (config.digestOf body) body)
    pure ⟨201, [("Location", "/v2/" ++ name ++ "/manifests/" ++ reference),
      ("Docker-Content-Digest", config.digestOf body), ("Content-Length", "0")]⟩
  | .error _ => do
    adjust config (-((2 * body.length : ℕ) : ℤ))
    throw (ociError 500 "MANIFEST_INVALID" "failed to store manifest")

/-- Give back the bytes of a file that was deleted. -/
def release (config : OciConfig) (freed : ℕ) : OciProg Unit :=
  if 0 < freed then adjust config (-(freed : ℤ)) else pure ()

/-- The bytes are given back where the manifest was there. -/
def deleteManifest (config : OciConfig) (name reference : String) : OciProg Response := do
  validateName name
  validateRef reference
  let data ← query (.getManifest name reference)
  match ← query (.deleteManifest name reference) with
  | .ok _ => do
    release config ((data.toOption.map List.length).getD 0)
    pure ⟨202, []⟩
  | .error _ => throw (ociError 404 "MANIFEST_UNKNOWN" "manifest not found")

def deleteBlob (config : OciConfig) (name digest : String) : OciProg Response := do
  validateName name
  validateDigestParam digest
  let size ← query (.blobSize digest)
  match ← query (.deleteBlob digest) with
  | .ok _ => do
    release config (size.toOption.getD 0)
    pure ⟨202, []⟩
  | .error _ => throw (ociError 404 "BLOB_UNKNOWN" "blob not found")

/-! ### Requests -/

/-- The requests that change the registry. -/
inductive OciRequest where
  | startUpload (name : String) (mount fromRepo : Option String) (body : Bytes)
  | patchUpload (name id : String) (body : Bytes)
  | completeUpload (name id digest : String) (body : Bytes)
  | putManifest (name reference : String) (body : Bytes)
  | deleteManifest (name reference : String)
  | deleteBlob (name digest : String)
deriving DecidableEq, Repr

def handle (config : OciConfig) : OciRequest → OciProg Response
  | .startUpload name mount fromRepo body => startUpload config name mount fromRepo body
  | .patchUpload name id body => patchUpload config name id body
  | .completeUpload name id digest body => completeUpload config name id digest body
  | .putManifest name reference body => putManifest config name reference body
  | .deleteManifest name reference => deleteManifest config name reference
  | .deleteBlob name digest => deleteBlob config name digest

/-! ### Requests that touch uploads only -/

/-- The call reads, or changes an upload that is not completed. -/
def OciCall.Leaves : OciCall → Prop
  | quota _ | deleteBlob _ | storeManifest .. | deleteManifest .. | completeUpload .. => False
  | _ => True

section CallsOnly

variable {ok : OciCall → Prop}

theorem require_callsOnly (holds : Bool) (refusal : Response) :
    (require holds refusal).run.CallsOnly (I := OciCalls) ok := by
  unfold require
  split_ifs <;> exact .pure _

variable (allows : ∀ call : OciCall, call.Leaves → ok call)
include allows

theorem checkBody_callsOnly (config : OciConfig) (body : Bytes) :
    (checkBody config body).run.CallsOnly (I := OciCalls) ok := by
  unfold checkBody checkQuota
  split_ifs
  · exact .pure _
  · exact .pure _
  · refine .exceptCall (allows _ trivial) fun quota => ?_
    cases quota with
    | error _ => exact .pure _
    | ok quota =>
      cases quota with
      | none => exact .pure _
      | some quota => exact require_callsOnly _ _

theorem append_callsOnly (id : String) (body : Bytes) (failure : String) :
    (append id body failure).run.CallsOnly (I := OciCalls) ok := by
  unfold append
  split_ifs
  · exact .pure _
  · refine .exceptCall (allows _ trivial) fun appended => ?_
    cases appended with
    | ok _ => exact .pure _
    | error error => cases error <;> exact .pure _

theorem mountBlob_callsOnly (name : String) (mount fromRepo : Option String) :
    (mountBlob name mount fromRepo).run.CallsOnly (I := OciCalls) ok := by
  cases mount with
  | none => exact .pure _
  | some digest =>
    cases fromRepo with
    | none => exact .pure _
    | some fromRepo =>
      refine .exceptBind (require_callsOnly _ _) fun _ =>
        .exceptBind (require_callsOnly _ _) fun _ => ?_
      refine .exceptCall (allows _ trivial) fun repos => ?_
      cases repos with
      | error _ => exact .pure _
      | ok repos =>
        dsimp only
        split_ifs
        · refine .exceptCall (allows _ trivial) fun found => ?_
          cases found with
          | error _ => exact .pure _
          | ok found => cases found <;> exact .pure _
        · exact .pure _

/-- **Starting an upload changes nothing but uploads.** -/
theorem startUpload_callsOnly (config : OciConfig) (name : String) (mount fromRepo : Option String)
    (body : Bytes) :
    (startUpload config name mount fromRepo body).run.CallsOnly (I := OciCalls) ok := by
  refine .exceptBind (require_callsOnly _ _) fun _ => ?_
  refine .exceptBind (checkBody_callsOnly allows _ _) fun _ => ?_
  refine .exceptBind (mountBlob_callsOnly allows _ _ _) fun mounted => ?_
  cases mounted with
  | some response => exact .pure _
  | none =>
    refine .exceptCall (allows _ trivial) fun id => ?_
    refine .exceptCall (allows _ trivial) fun created => ?_
    cases created with
    | error _ => exact .pure _
    | ok _ => exact .exceptBind (append_callsOnly allows _ _ _) fun _ => .pure _

/-- **So does patching one.** -/
theorem patchUpload_callsOnly (config : OciConfig) (name id : String) (body : Bytes) :
    (patchUpload config name id body).run.CallsOnly (I := OciCalls) ok := by
  refine .exceptBind (require_callsOnly _ _) fun _ => ?_
  refine .exceptBind (checkBody_callsOnly allows _ _) fun _ => ?_
  refine .exceptCall (allows _ trivial) fun start => ?_
  cases start with
  | error _ => exact .pure _
  | ok start =>
    refine .exceptCall (allows _ trivial) fun appended => ?_
    cases appended with
    | ok _ => exact .pure _
    | error error => cases error <;> exact .pure _

end CallsOnly

/-- Nothing but the uploads is changed. -/
def SameFiles (store store' : OciStore) : Prop :=
  store'.blobs = store.blobs ∧ store'.manifests = store.manifests ∧ store'.quotas = store.quotas

theorem sameFiles_ociHandle (leaves : call.Leaves) (moment : OciMoment) (store : OciStore) :
    SameFiles store (ociHandle config moment call store).2 := by
  cases call with
  | quota | deleteBlob | storeManifest | deleteManifest | completeUpload => exact leaves.elim
  | createUpload id =>
    show SameFiles store (store.createUpload _ id).2
    unfold OciStore.createUpload
    split_ifs <;> exact ⟨rfl, rfl, rfl⟩
  | appendUpload id data =>
    show SameFiles store (store.appendUpload config _ id data).2
    unfold OciStore.appendUpload
    cases store.uploads.get id with
    | none => split_ifs <;> exact ⟨rfl, rfl, rfl⟩
    | some current =>
      dsimp only
      split_ifs
      · exact ⟨rfl, rfl, rfl⟩
      · exact ⟨rfl, rfl, rfl⟩
      · cases moment.write <;> exact ⟨rfl, rfl, rfl⟩
  | _ => exact ⟨rfl, rfl, rfl⟩

end Muli.Oci
