/-
**The storage of the OCI registry.**

Blobs are files named after their digest, manifests are files of a repository named after a tag or a
digest, and an upload is a file of its own until its digest is checked and it is moved among the
blobs.
-/

import Mathlib.Data.List.Dedup
import Mathlib.Data.List.Sort
import Mathlib.Data.String.Basic
import Muli.Data.Text
import Muli.Interaction.Typestate
import Muli.Registry.Quota

namespace Muli

namespace Oci

open Interaction

/-! ### Names -/

def isLowerAlnum (c : Char) : Bool := c.isLower || c.isDigit

/-- `[a-z0-9]+([._-][a-z0-9]+)*`, where `open'` says that a letter or digit has to follow. -/
def matchesComponent : (open' : Bool) → List Char → Bool
  | open', [] => !open'
  | open', c :: rest =>
    if isLowerAlnum c then matchesComponent false rest
    else !open' && (c == '.' || c == '_' || c == '-') && matchesComponent true rest

def isValidNameComponent (component : List Char) : Bool := matchesComponent true component

/-- Components between slashes, at most 256 bytes. -/
def validateRepositoryName (name : String) : Bool :=
  name ≠ "" && name.utf8ByteSize ≤ 256 && (name.toList.splitOn '/').all isValidNameComponent

def isLowerHex (c : Char) : Bool := c.isDigit || ('a' ≤ c && c ≤ 'f')

/-- The digits of a digest of the algorithm. -/
def hashLength (algo : List Char) : Option ℕ :=
  if algo = "sha256".toList then some 64 else if algo = "sha512".toList then some 128 else none

/-- An algorithm, a colon and as many lower-case digits as it has. -/
def validateDigest (digest : String) : Bool :=
  match Text.splitFirst [':'] digest.toList with
  | none => false
  | some (algo, hash) => hashLength algo = some hash.length && hash.all isLowerHex

def isTagChar (c : Char) : Bool := c.isAlphanum || c == '_' || c == '.' || c == '-'

/-- A digest, or a tag that starts with a letter, a digit or an underscore. -/
def validateReference (reference : String) : Bool :=
  match reference.toList with
  | [] => false
  | first :: rest =>
    if ':' ∈ first :: rest then validateDigest reference
    else reference.utf8ByteSize ≤ 128 && (first.isAlphanum || first == '_') &&
      (first :: rest).all isTagChar

variable {digest : String}

theorem validateReference_of_digest (valid : validateDigest digest) : validateReference digest := by
  unfold validateReference
  cases isText : digest.toList with
  | nil =>
    unfold validateDigest at valid
    rw [isText] at valid
    exact absurd valid (by decide)
  | cons first rest =>
    have hasColon : ':' ∈ first :: rest := by
      unfold validateDigest at valid
      rw [isText] at valid
      cases found : Text.splitFirst [':'] (first :: rest) with
      | none => grind
      | some parts =>
        rw [Text.eq_append_of_splitFirst found]
        simp
    dsimp only
    rw [if_pos hasColon]
    exact valid

/-- A UUID in five groups. -/
def validateUploadId (id : String) : Bool :=
  let parts := id.toList.splitOn '-'
  id.utf8ByteSize = 36 && parts.map List.length = [8, 4, 4, 4, 12] &&
    parts.all fun part => part.all fun c => c.isDigit || ('a' ≤ c && c ≤ 'f') ||
    ('A' ≤ c && c ≤ 'F')

/-! ### The directories of a tenant -/

/-- Blobs by digest, manifests by repository and reference, uploads by id. -/
structure OciStore where
  blobs : Assoc String Bytes := ∅
  manifests : Assoc (String × String) Bytes := ∅
  uploads : Assoc String Bytes := ∅
  quotas : QuotaTable := ∅
deriving DecidableEq, Repr

inductive StorageError where
  | blobNotFound (what : String)
  | manifestNotFound (name reference : String)
  | invalidDigest (message : String)
  | blobTooLarge (message : String)
  | invalidInput
  | io
deriving DecidableEq, Repr

structure OciConfig where
  tenantId : String
  quotaStore : Bool := true
  maxBlobSizeBytes : ℕ := 5 * 1024 * 1024 * 1024
  /-- `sha256:` and the hash of the contents in hexadecimal digits. -/
  digestOf : Bytes → String

namespace OciStore

variable (store : OciStore)

def hasBlob (works : Bool) (digest : String) : Except StorageError Bool :=
  if !validateDigest digest then .error (.invalidDigest digest)
  -- a file that cannot be looked up does not exist
  else .ok (works && (store.blobs.get digest).isSome)

/-- The bytes of a blob; one that is missing is an error. -/
def blobSize (works : Bool) (digest : String) : Except StorageError ℕ :=
  if !validateDigest digest then .error (.invalidDigest digest)
  else match store.blobs.get digest with
    | none => .error (.blobNotFound digest)
    | some data => if works then .ok data.length else .error .io

/-- A blob that is missing is no error. -/
def deleteBlob (works : Bool) (digest : String) : Except StorageError Unit × OciStore :=
  if !validateDigest digest then (.error (.invalidDigest digest), store)
  else if (store.blobs.get digest).isNone then (.ok (), store)
  else if works then (.ok (), { store with blobs := store.blobs.erase digest })
  else (.error .io, store)

def isManifestPath (name reference : String) : Bool :=
  validateRepositoryName name && validateReference reference

/-- A manifest is replaced. -/
def storeManifest (outcome : WriteOutcome) (name reference : String) (data : Bytes) :
    Except StorageError Unit × OciStore :=
  if !isManifestPath name reference then (.error .invalidInput, store)
  else match outcome with
    | .done => (.ok (), { store with manifests := store.manifests.set (name, reference) data })
    | .failed => (.error .io, store)
    | .torn contents =>
      (.error .io, { store with manifests := store.manifests.set (name, reference) contents })

def getManifest (works : Bool) (name reference : String) : Except StorageError Bytes :=
  if !isManifestPath name reference then .error .invalidInput
  else match store.manifests.get (name, reference) with
    | none => .error (.manifestNotFound name reference)
    | some data => if works then .ok data else .error .io

/-- A manifest that is missing is no error. -/
def deleteManifest (works : Bool) (name reference : String) : Except StorageError Unit × OciStore :=
  if !isManifestPath name reference then (.error .invalidInput, store)
  else if (store.manifests.get (name, reference)).isNone then (.ok (), store)
  else if works then (.ok (), { store with manifests := store.manifests.erase (name, reference) })
  else (.error .io, store)

/-- The repositories that have a manifest, in order. -/
def listRepositories : List String :=
  (store.manifests.rows.map fun entry => entry.1.1).dedup.insertionSort (· ≤ ·)

/-- An upload starts without bytes. -/
def createUpload (works : Bool) (id : String) : Except StorageError Unit × OciStore :=
  if !validateUploadId id then (.error .invalidInput, store)
  else if works then (.ok (), { store with uploads := store.uploads.set id [] })
  else (.error .io, store)

/-- How many bytes of the upload are there. -/
def uploadOffset (works : Bool) (id : String) : Except StorageError ℕ :=
  if !validateUploadId id then .error .invalidInput
  else match store.uploads.get id with
    | none => .error (.blobNotFound ("upload " ++ id ++ " not found"))
    | some data => if works then .ok data.length else .error .io

/-- Append to an upload, within the size limit. A failed write may have appended a part. -/
def appendUpload (config : OciConfig) (outcome : WriteOutcome) (id : String) (data : Bytes) :
    Except StorageError ℕ × OciStore :=
  if !validateUploadId id then (.error .invalidInput, store)
  else match store.uploads.get id with
    | none => (.error (.blobNotFound ("upload " ++ id ++ " not found")), store)
    | some current =>
      if 0 < config.maxBlobSizeBytes ∧ config.maxBlobSizeBytes < current.length + data.length then
        (.error (.blobTooLarge ("upload would exceed max blob size of " ++
          config.maxBlobSizeBytes.repr ++ " bytes (current: " ++ current.length.repr ++
          ", incoming: " ++ data.length.repr ++ ")")), store)
      else match outcome with
        | .done =>
          (.ok (current.length + data.length),
            { store with uploads := store.uploads.set id (current ++ data) })
        | .failed => (.error .io, store)
        | .torn contents =>
          (.error .io, { store with uploads := store.uploads.set id (current ++ contents) })

/-- Check the digest of an upload and move it among the blobs. A move between file systems is a
copy, which may stop half way. -/
def completeUpload (config : OciConfig) (outcome : WriteOutcome) (id digest : String) :
    Except StorageError Unit × OciStore :=
  if !validateUploadId id then (.error .invalidInput, store)
  else match store.uploads.get id with
    | none => (.error (.blobNotFound ("upload " ++ id ++ " not found")), store)
    | some data =>
      if config.digestOf data ≠ digest then
        (.error (.invalidDigest ("expected " ++ digest ++ ", got " ++ config.digestOf data)),
          { store with uploads := store.uploads.erase id })
      else if !validateDigest digest then (.error (.invalidDigest digest), store)
      else match outcome with
        | .done =>
          (.ok (), { store with
            blobs := store.blobs.set digest data
            uploads := store.uploads.erase id })
        | .failed => (.error .io, store)
        | .torn contents => (.error .io, { store with blobs := store.blobs.set digest contents })

def listBlobs : List String := store.blobs.rows.map Prod.fst

/-- The names of the manifest files of all repositories. -/
def listManifests : List (String × String) := store.manifests.rows.map Prod.fst

/-- One of these files; it may have been deleted since. -/
def readManifest (works : Bool) (file : String × String) : Except StorageError Bytes :=
  match store.manifests.get file with
  | some data => if works then .ok data else .error .io
  | none => .error .io

end OciStore

/-! ### What an access without failure does -/

namespace OciStore

variable {store : OciStore}

section

variable (valid : validateDigest digest)
include valid

theorem hasBlob_eq :
    store.hasBlob true digest = .ok (store.blobs.get digest).isSome := by
  unfold hasBlob
  rw [valid]
  rfl

theorem blobSize_of_get (stored : store.blobs.get digest = some data) :
    store.blobSize true digest = .ok data.length := by
  unfold blobSize
  rw [valid, stored]
  rfl

theorem toOption_blobSize :
    (store.blobSize true digest).toOption.getD 0 = store.blobs.sizeAt List.length digest := by
  unfold blobSize Assoc.sizeAt
  rw [valid]
  cases store.blobs.get digest <;> rfl

theorem deleteBlob_eq :
    store.deleteBlob true digest = (.ok (), { store with blobs := store.blobs.erase digest }) := by
  unfold deleteBlob
  rw [valid]
  cases stored : store.blobs.get digest with
  | some data => rfl
  | none => rw [Table.erase_of_find_none (Option.map_eq_none_iff.mp stored)]; rfl

end

variable {name reference : String}

theorem isManifestPath_of (validName : validateRepositoryName name)
    (validRef : validateReference reference) : isManifestPath name reference := by
  unfold isManifestPath
  rw [validName, validRef]
  rfl

section

variable (valid : isManifestPath name reference)
include valid

theorem storeManifest_eq (data : Bytes) :
    store.storeManifest .done name reference data =
      (.ok (), { store with manifests := store.manifests.set (name, reference) data }) := by
  unfold storeManifest
  rw [valid]
  rfl

theorem toOption_getManifest :
    ((store.getManifest true name reference).toOption.map List.length).getD 0 =
      store.manifests.sizeAt List.length (name, reference) := by
  unfold getManifest Assoc.sizeAt
  rw [valid]
  cases store.manifests.get (name, reference) <;> rfl

theorem deleteManifest_eq :
    store.deleteManifest true name reference =
      (.ok (), { store with manifests := store.manifests.erase (name, reference) }) := by
  unfold deleteManifest
  rw [valid]
  cases stored : store.manifests.get (name, reference) with
  | some data => rfl
  | none => rw [Table.erase_of_find_none (Option.map_eq_none_iff.mp stored)]; rfl

end

theorem appendUpload_cases (config : OciConfig) (id : String) (data : Bytes) :
    (∃ error, store.appendUpload config .done id data = (.error error, store)) ∨
      ∃ current, store.uploads.get id = some current ∧ store.appendUpload config .done id data =
        (.ok (current.length + data.length),
          { store with uploads := store.uploads.set id (current ++ data) }) := by
  unfold appendUpload
  split_ifs
  · exact .inl ⟨_, rfl⟩
  · cases found : store.uploads.get id with
    | none => exact .inl ⟨_, rfl⟩
    | some current =>
      dsimp only
      split_ifs
      · exact .inl ⟨_, rfl⟩
      · exact .inr ⟨current, rfl, rfl⟩

theorem completeUpload_cases (config : OciConfig) (id digest : String) :
    (∃ error uploads, store.completeUpload config .done id digest =
        (.error error, { store with uploads })) ∨
      ∃ data, store.uploads.get id = some data ∧ config.digestOf data = digest ∧
        store.completeUpload config .done id digest =
          (.ok (), { store with
            blobs := store.blobs.set digest data
            uploads := store.uploads.erase id }) := by
  unfold completeUpload
  cases found : store.uploads.get id with
  | none => split_ifs <;> exact .inl ⟨_, store.uploads, rfl⟩
  | some data =>
    dsimp only
    split_ifs with badId mismatch
    · exact .inl ⟨_, store.uploads, rfl⟩
    · exact .inl ⟨_, store.uploads.erase id, rfl⟩
    · exact .inl ⟨_, store.uploads, rfl⟩
    · exact .inr ⟨data, rfl, not_not.mp mismatch, rfl⟩

end OciStore

/-! ### Calls -/

/-- The calls on the storage, on the quotas and for a new id. -/
inductive OciCall where
  | quota (call : QuotaCall)
  | getQuota (tenantId : String)
  | hasBlob (digest : String)
  | blobSize (digest : String)
  | deleteBlob (digest : String)
  | storeManifest (name reference : String) (data : Bytes)
  | getManifest (name reference : String)
  | deleteManifest (name reference : String)
  | listRepositories
  | createUpload (id : String)
  | uploadOffset (id : String)
  | appendUpload (id : String) (data : Bytes)
  | completeUpload (id digest : String)
  | listBlobs
  | listManifests
  | readManifest (file : String × String)
  | newUuid

abbrev OciCall.Answer : OciCall → Type
  | quota call => call.Answer
  | getQuota _ => Except MuliError (Option TenantQuota)
  | hasBlob _ => Except StorageError Bool
  | blobSize _ | uploadOffset _ | appendUpload .. => Except StorageError ℕ
  | getManifest .. | readManifest _ => Except StorageError Bytes
  | deleteBlob _ | storeManifest .. | deleteManifest .. | createUpload _ | completeUpload .. =>
    Except StorageError Unit
  | listRepositories | listBlobs => Except StorageError (List String)
  | listManifests => Except StorageError (List (String × String))
  | newUuid => String

abbrev OciCalls : Interface := ⟨OciCall, OciCall.Answer⟩

/-- What is decided at a moment: which calls work, and the id. -/
structure OciMoment where
  works : Bool := true
  write : WriteOutcome := .done
  quotaWorks : Bool := true
  uuid : String := ""
deriving DecidableEq, Repr

/-- A directory that is read. -/
def listing {α : Type} (works : Bool) (entries : List α) : Except StorageError (List α) :=
  if works then .ok entries else .error .io

def ociHandle (config : OciConfig) : Handler OciCalls OciStore OciMoment
  | moment, .quota call, store =>
    let (answer, quotas) := quotaHandle moment.quotaWorks call store.quotas
    (answer, { store with quotas })
  | moment, .getQuota tenantId, store =>
    (if moment.quotaWorks then .ok (store.quotas.find tenantId)
      else .error (.storage "quota store failed"), store)
  | moment, .hasBlob digest, store => (store.hasBlob moment.works digest, store)
  | moment, .blobSize digest, store => (store.blobSize moment.works digest, store)
  | moment, .deleteBlob digest, store => store.deleteBlob moment.works digest
  | moment, .storeManifest name reference data, store =>
    store.storeManifest moment.write name reference data
  | moment, .getManifest name reference, store =>
    (store.getManifest moment.works name reference, store)
  | moment, .deleteManifest name reference, store =>
    store.deleteManifest moment.works name reference
  | moment, .listRepositories, store => (listing moment.works store.listRepositories, store)
  | moment, .createUpload id, store => store.createUpload moment.works id
  | moment, .uploadOffset id, store => (store.uploadOffset moment.works id, store)
  | moment, .appendUpload id data, store => store.appendUpload config moment.write id data
  | moment, .completeUpload id digest, store => store.completeUpload config moment.write id digest
  | moment, .listBlobs, store => (listing moment.works store.listBlobs, store)
  | moment, .listManifests, store => (listing moment.works store.listManifests, store)
  | moment, .readManifest file, store => (store.readManifest moment.works file, store)
  | moment, .newUuid, store => (moment.uuid, store)

/-! ### A registry with three contents -/

/-- The SHA-256 digests of the empty contents, of `a`, and of `b` for everything else. -/
def sampleDigest (data : Bytes) : String :=
  if data = [] then "sha256:e3b0c44298fc1c149afbf4c8996fb92427ae41e4649b934ca495991b7852b855"
  else if data = [97] then "sha256:ca978112ca1bbdcafac231b39a23dc4da786eff8147c4e72b9807785afee48bb"
  else "sha256:3e23e8160039594a33894f6564e1b1348bbd7a0088d42c4acb73eeaed59c009d"

theorem validateDigest_sampleDigest (data : Bytes) : validateDigest (sampleDigest data) := by
  unfold sampleDigest
  split_ifs <;> decide +kernel

def sampleConfig : OciConfig := { tenantId := "tenant", digestOf := sampleDigest }

def sampleId : String := "0f8fad5b-d9cb-469f-a165-70867728950e"

end Oci

end Muli
