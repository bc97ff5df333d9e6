/-
**Publishing to the npm registry.**

A publish stores the attachments, file by file, then reads the packument, refuses versions that it
already has, records each new version with the checksums of its tarball, and writes the packument
back. Each access to the storage may fail, and a write may leave a file half written.
-/

import Mathlib.Data.List.Sort
import Mathlib.Data.String.Basic
import Muli.Core.Resources
import Muli.Interaction.Typestate
import Muli.Registry.Npm.Names
import Muli.Registry.Quota

namespace Muli

namespace Npm

open Interaction

/-! ### Documents -/

/-- The file of a version and its checksums. -/
structure Dist where
  tarball : String
  shasum : String
  integrity : Option String
deriving DecidableEq, Repr

/-- What is recorded of a version. -/
structure VersionMetadata where
  name : String
  version : String
  description : Option String := none
  dist : Dist
deriving DecidableEq, Repr

/-- The document of a package: its versions, tags and times. -/
structure Packument where
  name : String
  description : Option String := none
  distTags : Assoc String String := ∅
  versions : Assoc String VersionMetadata := ∅
  time : Assoc String String := ∅
  rev : String
deriving DecidableEq, Repr

/-- The body of a publish request. A version is `none` where it does not parse; an attachment is the
text of its data. The maps are in the order in which they are iterated. -/
structure PublishRequest where
  name : String
  description : Option String := none
  distTags : Assoc String String := ∅
  versions : Assoc String (Option VersionMetadata) := ∅
  attachments : Assoc String String := ∅
deriving DecidableEq, Repr

/-! ### The storage -/

/-- The directory of a package. -/
structure Folder where
  /-- The document in `metadata.json`, if it is there and parses. -/
  metadata : Option Packument := none
  /-- The files under `-`. -/
  tarballs : Assoc String Bytes := ∅
deriving DecidableEq, Repr

def Folder.holding (filename : String) (data : Bytes) (folder : Folder) : Folder :=
  { folder with tarballs := folder.tarballs.set filename data }

def Folder.describedBy (metadata : Option Packument) (folder : Folder) : Folder :=
  { folder with metadata }

/-- The directories of the packages by name, and the quotas. -/
structure NpmStore where
  folders : Assoc String Folder := ∅
  quotas : QuotaTable := ∅
deriving DecidableEq, Repr

inductive StorageError where
  | invalidInput
  | io
deriving DecidableEq, Repr

/-- How an access to a file ends. A write that fails may have made the directory, or left the file
with some contents. -/
inductive FileOutcome where
  | done
  | failed
  | madeDir
  | torn (contents : Bytes)
deriving DecidableEq, Repr

namespace NpmStore

def folder (store : NpmStore) (dir : String) : Option Folder := store.folders.get dir

/-- The store with a directory changed, which is made if it is missing. -/
def change (store : NpmStore) (dir : String) (f : Folder → Folder) : NpmStore :=
  { store with folders := store.folders.set dir (f ((store.folder dir).getD {})) }

def tarball (store : NpmStore) (dir filename : String) : Option Bytes :=
  (store.folder dir).bind fun folder => folder.tarballs.get filename

def packument (store : NpmStore) (dir : String) : Option Packument :=
  (store.folder dir).bind Folder.metadata

/-- The name of the file has to be one path component; a file is replaced. -/
def storeTarball (outcome : FileOutcome) (package filename : String) (data : Bytes)
    (store : NpmStore) : Except StorageError Unit × NpmStore :=
  if !isPathComponent filename.toList then (.error .invalidInput, store)
  else match packageDir package, outcome with
    | none, _ => (.error .invalidInput, store)
    | some dir, .done => (.ok (), store.change dir (Folder.holding filename data))
    | some _, .failed => (.error .io, store)
    | some dir, .madeDir => (.error .io, store.change dir id)
    | some dir, .torn contents => (.error .io, store.change dir (Folder.holding filename contents))

def readTarball (outcome : FileOutcome) (package filename : String) (store : NpmStore) :
    Except StorageError Bytes :=
  if !isPathComponent filename.toList then .error .invalidInput
  else match packageDir package, outcome with
    | none, _ => .error .invalidInput
    | some dir, .done =>
      match store.tarball dir filename with
      | some data => .ok data
      | none => .error .io
    | some _, _ => .error .io

/-- The packument of a package; `none` also when it cannot be read. -/
def readPackument (outcome : FileOutcome) (package : String) (store : NpmStore) :
    Option Packument :=
  match packageDir package, outcome with
  | some dir, .done => store.packument dir
  | _, _ => none

/-- The document is written in place. -/
def writePackument (outcome : FileOutcome) (package : String) (packument : Packument)
    (store : NpmStore) : Except StorageError Unit × NpmStore :=
  match packageDir package, outcome with
  | none, _ => (.error .invalidInput, store)
  | some dir, .done => (.ok (), store.change dir (Folder.describedBy (some packument)))
  | some _, .failed => (.error .io, store)
  | some dir, .madeDir => (.error .io, store.change dir id)
  -- a document that is cut off does not parse
  | some dir, .torn _ => (.error .io, store.change dir (Folder.describedBy none))

def dirs (store : NpmStore) : List String := store.folders.rows.map Prod.fst

/-- The names are read back from the directories. -/
def listPackages (store : NpmStore) : List String :=
  (store.dirs.map restoreName).insertionSort (· ≤ ·)

end NpmStore

/-! ### Calls -/

/-- The calls on the storage, on the quotas and on the clock. -/
inductive NpmCall where
  | quota (call : QuotaCall)
  | storeTarball (package filename : String) (data : Bytes)
  | readTarball (package filename : String)
  | readPackument (package : String)
  | writePackument (package : String) (packument : Packument)
  | now
  | newUuid

abbrev NpmCall.Answer : NpmCall → Type
  | quota call => call.Answer
  | storeTarball .. | writePackument .. => Except StorageError Unit
  | readTarball .. => Except StorageError Bytes
  | readPackument _ => Option Packument
  | now | newUuid => String

abbrev NpmCalls : Interface := ⟨NpmCall, NpmCall.Answer⟩

/-- What is decided at a moment: what becomes of accesses, and the time. -/
structure NpmMoment where
  tarball : FileOutcome := .done
  metadata : FileOutcome := .done
  quotaWorks : Bool := true
  now : String := ""
  uuid : String := ""

def npmHandle : Handler NpmCalls NpmStore NpmMoment
  | moment, .quota call, store =>
    let (answer, quotas) := quotaHandle moment.quotaWorks call store.quotas
    (answer, { store with quotas })
  | moment, .storeTarball package filename data, store =>
    store.storeTarball moment.tarball package filename data
  | moment, .readTarball package filename, store =>
    (store.readTarball moment.tarball package filename, store)
  | moment, .readPackument package, store => (store.readPackument moment.metadata package, store)
  | moment, .writePackument package packument, store =>
    store.writePackument moment.metadata package packument
  | moment, .now, store => (moment.now, store)
  | moment, .newUuid, store => (moment.uuid, store)

/-! ### The handler -/

/-- The tenant, and what is used of other crates. -/
structure NpmConfig where
  tenantId : String
  quotaStore : Bool := true
  decode : String → Option Bytes
  sha1Hex : Bytes → String
  sha512Base64 : Bytes → String
  parsesVersion : String → Bool

abbrev NpmProg (α : Type) := ExceptT Response (Prog NpmCalls) α

def query (call : NpmCall) : NpmProg call.Answer := ExceptT.lift (Prog.perform (I := NpmCalls) call)

def overQuota {α : Type} (p : Prog QuotaCalls α) : Prog NpmCalls α :=
  p.translate fun call => Prog.perform (I := NpmCalls) (.quota call)

/-- Store one attachment under the last part of its name. -/
def storeAttachment (config : NpmConfig) (package : String) (attachment : String × String) :
    NpmProg Unit :=
  match config.decode attachment.2 with
  | none => throw (errorJson 400 "invalid base64 in attachment")
  | some data => do
    ExceptT.mk (overQuota (reserveQuota config.quotaStore config.tenantId data.length).run)
    match ← query (.storeTarball package (baseName attachment.1) data) with
    | .ok _ => pure ()
    | .error _ => do
      ExceptT.lift (overQuota
        (adjustQuotaUsage config.quotaStore config.tenantId (-(data.length : ℤ))))
      throw (errorJson 500 "failed to store tarball")

/-- The data of the first attachment whose name contains the version. -/
def findAttachment (config : NpmConfig) (request : PublishRequest) (version : String) :
    Option Bytes :=
  (request.attachments.rows.find? fun attachment => version.toList <:+: attachment.1.toList).bind
    fun attachment => config.decode attachment.2

/-- What is recorded for the bytes of a version. -/
def NpmConfig.dist (config : NpmConfig) (package version : String) (data : Bytes) : Dist where
  tarball := "/-/npm/" ++ package ++ "/-/" ++ tarballFilename package version
  shasum := config.sha1Hex data
  integrity := some ("sha512-" ++ config.sha512Base64 data)

/-- The bytes of which the checksums are taken: those of the stored file, or else of an attachment.
-/
def tarballData (config : NpmConfig) (package : String) (request : PublishRequest)
    (version : String) : NpmProg Bytes := do
  match ← query (.readTarball package (tarballFilename package version)) with
  | .ok data => pure data
  | .error _ =>
    match findAttachment config request version with
    | some data => pure data
    | none => throw (errorJson 400 ("tarball not found for version " ++ version))

/-- The document with a version. Its distribution info is always computed here. -/
def Packument.withVersion (packument : Packument) (package : String) (request : PublishRequest)
    (now : String) (entry : String × Option VersionMetadata) (dist : Dist) : Packument :=
  let metadata := entry.2.getD ⟨package, entry.1, request.description, dist⟩
  { packument with
    versions := packument.versions.set entry.1 { metadata with dist }
    time := packument.time.set entry.1 now }

/-- Add a version to the document, with the checksums of its file. -/
def addVersion (config : NpmConfig) (package : String) (request : PublishRequest) (now : String)
    (packument : Packument) (entry : String × Option VersionMetadata) : NpmProg Packument :=
  if !config.parsesVersion entry.1 then
    throw (errorJson 400 (NpmValidationError.invalidVersion entry.1).toString)
  else do
    let data ← tarballData config package request entry.1
    pure (packument.withVersion package request now entry (config.dist package entry.1 data))

/-- The document of a package that has none yet. -/
def freshPackument (package : String) (request : PublishRequest) (now : String) : Packument where
  name := package
  description := request.description
  time := Assoc.set ∅ "created" now
  rev := "1-0"

/-- The number at the start of a revision. -/
def revNumber (rev : String) : ℕ :=
  match parseU64 (rev.toList.takeWhile (· ≠ '-')) with
  | .ok n => n
  | .error _ => 0

/-- The document with the tags, the revision and the time of the request. -/
def Packument.stamped (packument : Packument) (request : PublishRequest) (now uuid : String) :
    Packument :=
  { packument with
    distTags := request.distTags.rows.foldl (fun tags entry => tags.set entry.1 entry.2)
      packument.distTags
    rev := ((revNumber packument.rev + 1) % 2 ^ 64).repr ++ "-" ++ uuid
    time := packument.time.set "modified" now }

/-- Read the document, add the versions and tags, write it back. -/
def updatePackument (config : NpmConfig) (package : String) (request : PublishRequest) :
    NpmProg Response := do
  let now ← query .now
  let stored ← query (.readPackument package)
  let packument := stored.getD (freshPackument package request now)
  match request.versions.rows.find? fun entry => (packument.versions.get entry.1).isSome with
  | some entry =>
    throw (errorJson 409 ("package `" ++ package ++ "@" ++ entry.1 ++ "` already exists"))
  | none => do
    let packument ← request.versions.rows.foldlM (addVersion config package request now) packument
    let uuid ← query .newUuid
    let packument := packument.stamped request now uuid
    match ← query (.writePackument package packument) with
    | .error _ => throw (errorJson 500 "failed to store metadata")
    | .ok _ => pure ⟨200, [("ok", "true"), ("success", "true"), ("rev", packument.rev)]⟩

/-- **Publish a package.** The body is a request, or the reason why it does not parse. -/
def handlePublish (config : NpmConfig) (package : String) (body : Except String PublishRequest) :
    NpmProg Response :=
  match body with
  | .error reason => throw (errorJson 400 ("invalid publish request: " ++ reason))
  | .ok request =>
    if request.name ≠ package then throw (errorJson 400 "package name in body does not match URL")
    else match validatePackageName package with
      | .error error => throw (errorJson 400 error.toString)
      | .ok _ => do
        request.attachments.rows.forM (storeAttachment config package)
        updatePackument config package request

/-- Requests one after the other. -/
def publishAll (config : NpmConfig) : List (String × Except String PublishRequest) →
    Prog NpmCalls (List (String × Except Response Response))
  | [] => pure []
  | (package, body) :: later => do
    let answer ← (handlePublish config package body).run
    let answers ← publishAll config later
    pure ((package, answer) :: answers)

/-! ### What a publish touches -/

/-- The call reads, or writes the document of the package. -/
def NpmCall.Describes (package : String) : NpmCall → Prop
  | writePackument other _ => other = package
  | quota _ | storeTarball .. => False
  | _ => True

/-- A call that writes, writes to the package. -/
def NpmCall.WritesTo (package : String) : NpmCall → Prop
  | storeTarball other .. | writePackument other _ => other = package
  | _ => True

namespace NpmStore

theorem folder_change (store : NpmStore) (dir dir' : String) (f : Folder → Folder) :
    (store.change dir f).folder dir' =
      if dir = dir' then some (f ((store.folder dir).getD {})) else store.folder dir' :=
  Assoc.get_set store.folders dir dir' _

end NpmStore

/-- **What one call does to the directories**: nothing, or it changes the one of the package to
which it writes. -/
theorem npmHandle_cases (moment : NpmMoment) (call : NpmCall) (store : NpmStore) :
    (npmHandle moment call store).2.folders = store.folders ∨ ∃ package dir f,
      (∀ package', call.WritesTo package' → package = package') ∧ packageDir package = some dir ∧
        (npmHandle moment call store).2 = store.change dir f := by
  cases call with
  | storeTarball package filename data =>
    show (store.storeTarball _ _ _ _).2.folders = _ ∨ ∃ _ _ _, _ ∧ _ ∧
      (store.storeTarball _ _ _ _).2 = _
    unfold NpmStore.storeTarball
    cases isDir : packageDir package with
    | none => split_ifs <;> exact .inl rfl
    | some dir =>
      split_ifs
      · exact .inl rfl
      · cases moment.tarball <;>
          first | exact .inl rfl | exact .inr ⟨package, dir, _, fun _ writes => writes, isDir, rfl⟩
  | writePackument package packument =>
    show (store.writePackument _ _ _).2.folders = _ ∨ ∃ _ _ _, _ ∧ _ ∧
      (store.writePackument _ _ _).2 = _
    unfold NpmStore.writePackument
    cases isDir : packageDir package with
    | none => exact .inl rfl
    | some dir =>
      cases moment.metadata <;>
        first | exact .inl rfl | exact .inr ⟨package, dir, _, fun _ writes => writes, isDir, rfl⟩
  | _ => exact .inl rfl

theorem folder_npmHandle (writes : call.WritesTo package) (other : packageDir package ≠ some dir)
    (moment : NpmMoment) (store : NpmStore) :
    (npmHandle moment call store).2.folder dir = store.folder dir := by
  rcases npmHandle_cases moment call store with same | ⟨package', dir', f, only, isDir, changed⟩
  · unfold NpmStore.folder
    rw [same]
  · grind [NpmStore.folder_change]

/-! ### The calls of a publish -/

section CallsOnly

variable {ok : NpmCall → Prop}

theorem overQuota_callsOnly {α : Type} (p : Prog QuotaCalls α) (isOk : ∀ call, ok (.quota call)) :
    (overQuota p).CallsOnly (I := NpmCalls) ok :=
  .translate p fun call => Prog.CallsOnly.perform (isOk call)

theorem storeAttachment_callsOnly (reserves : ∀ call, ok (.quota call))
    (stores : ∀ data, config.decode attachment.2 = some data →
      ok (.storeTarball package (baseName attachment.1) data)) :
    (storeAttachment config package attachment).run.CallsOnly (I := NpmCalls) ok := by
  unfold storeAttachment
  cases decoded : config.decode attachment.2 with
  | none => exact .pure _
  | some data =>
    refine .exceptBind (overQuota_callsOnly _ reserves) fun _ => ?_
    refine .exceptCall (stores data decoded) fun stored => ?_
    cases stored with
    | ok _ => exact .pure _
    | error _ => exact .exceptBind (.exceptLift (overQuota_callsOnly _ reserves)) fun _ => .pure _

end CallsOnly

theorem addVersion_callsOnly (config : NpmConfig) (package : String) (request : PublishRequest)
    (now : String) (packument : Packument) (entry : String × Option VersionMetadata) :
    (addVersion config package request now packument entry).run.CallsOnly (I := NpmCalls)
      (NpmCall.Describes package) := by
  unfold addVersion tarballData
  split_ifs
  · exact .pure _
  · refine .exceptBind (.exceptCall trivial fun read => ?_) fun data => .pure _
    cases read with
    | ok data => exact .pure _
    | error _ => cases findAttachment config request entry.1 <;> exact .pure _

theorem updatePackument_callsOnly (config : NpmConfig) (package : String)
    (request : PublishRequest) :
    (updatePackument config package request).run.CallsOnly (I := NpmCalls)
      (NpmCall.Describes package) := by
  refine .exceptCall trivial fun now => ?_
  refine .exceptCall trivial fun stored => ?_
  dsimp only
  cases request.versions.rows.find? _ with
  | some entry => exact .pure _
  | none =>
    refine .exceptBind (.exceptFoldlM (addVersion_callsOnly config package request now) _) ?_
    intro packument
    refine .exceptCall trivial fun uuid => ?_
    refine .exceptCall rfl fun written => ?_
    cases written <;> exact .pure _

/-- **A publish writes to its package only.** -/
theorem handlePublish_callsOnly (config : NpmConfig) (package : String)
    (body : Except String PublishRequest) :
    (handlePublish config package body).run.CallsOnly (I := NpmCalls)
      (NpmCall.WritesTo package) := by
  cases body with
  | error reason => exact .pure _
  | ok request =>
    unfold handlePublish
    dsimp only
    split_ifs
    · exact .pure _
    · cases validatePackageName package with
      | error error => exact .pure _
      | ok _ =>
        refine .exceptBind (.exceptForM fun attachment => ?_) fun _ =>
          (updatePackument_callsOnly config package request).mono fun call describes => ?_
        · exact storeAttachment_callsOnly (fun _ => trivial) fun _ _ => rfl
        · cases call <;> first | exact describes | exact trivial | exact describes.elim

end Npm

end Muli
