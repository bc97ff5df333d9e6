/-
**The requests of the Maven registry.**

Uploads, the sidecars with their checksums, regenerated metadata and temporary files are all written
to the directories of the tenant. An upload writes a temporary file beside the file and renames it.
-/

import Mathlib.Data.Char
import Mathlib.Data.List.Lex
import Mathlib.Data.List.Sort
import Muli.Interaction.Typestate
import Muli.Registry.Maven.Paths
import Muli.Registry.Quota

namespace Muli.Maven

open Interaction

/-! ### Locations -/

/-- Where a file or a directory is, below the Maven directory of the tenant. -/
abbrev Location := List (List Char)

/-- The directories of the group, of the artifact and of the version. -/
def MavenCoordinate.dir (coord : MavenCoordinate) : Location :=
  coord.groupId.splitOn '.' ++ [coord.artifactId] ++ coord.version.toList

def artifactPath (coord : MavenCoordinate) : Location := coord.dir ++ coord.filename.toList

/-- Change the name of the file. -/
def mapLast (f : List Char → List Char) (location : Location) : Location :=
  location.dropLast ++ (location.getLast?.map f).toList

/-- The file with something added to its name. -/
def withSuffix (ext : String) : Location → Location := mapLast (· ++ ext.toList)

/-- What stands after the last dot of a file name, unless the name starts with it. -/
def extension (file : List Char) : Option (List Char) :=
  match splitLast '.' file with
  | none | some ([], _) => none
  | some (_, ext) => some ext

/-- The name without its extension; a name that starts with its only dot has none. -/
def fileStem (file : List Char) : List Char :=
  match splitLast '.' file with
  | none | some ([], _) => file
  | some (stem, _) => stem

def withExtension (ext file : List Char) : List Char := fileStem file ++ '.' :: ext

/-- The name of the temporary file: `.tmp` after the extension. -/
def tempName (file : List Char) : List Char :=
  withExtension ((extension file).getD "dat".toList ++ ".tmp".toList) file

def tempPath : Location → Location := mapLast tempName

@[simp] theorem mapLast_concat (f : List Char → List Char) (dir : Location) (file : List Char) :
    mapLast f (dir ++ [file]) = dir ++ [f file] := by
  unfold mapLast
  rw [List.dropLast_concat, List.getLast?_concat]
  rfl

theorem tempName_suffix (file : List Char) : ".tmp".toList <:+ tempName file := by
  refine ⟨fileStem file ++ '.' :: (extension file).getD "dat".toList, ?_⟩
  unfold tempName withExtension
  rw [List.append_assoc, List.cons_append]

/-! ### Files -/

/-- The files and directories of a tenant, and the quotas. -/
structure MavenStore where
  files : Assoc Location Bytes := ∅
  dirs : List Location := []
  quotas : QuotaTable := ∅
deriving DecidableEq, Repr

namespace MavenStore

variable (store : MavenStore)

/-- Something is there; a failed access counts as nothing. -/
def fileExists (works : Bool) (location : Location) : Bool :=
  works && ((store.files.get location).isSome || decide (location ∈ store.dirs))

/-- The contents of a file, `none` if it is missing; a directory cannot be read. -/
def readFile (works : Bool) (location : Location) : Except Unit (Option Bytes) :=
  if !works then .error ()
  else match store.files.get location with
    | some data => .ok (some data)
    | none => if location ∈ store.dirs then .error () else .ok none

/-- Make a directory and those above it, unless a file is in the way. -/
def createDirAll (works : Bool) (location : Location) : Except Unit Unit × MavenStore :=
  if !works || location.inits.any fun dir => (store.files.get dir).isSome then (.error (), store)
  else (.ok (), { store with
    dirs := (location.inits.filter fun dir => dir ∉ store.dirs) ++ store.dirs })

def holding (location : Location) (data : Bytes) : MavenStore :=
  { store with files := store.files.set location data }

/-- Write a file; a write that fails may leave a part. -/
def writeFile (outcome : WriteOutcome) (location : Location) (data : Bytes) :
    Except Unit Unit × MavenStore :=
  if location ∈ store.dirs then (.error (), store)
  else match outcome with
    | .done => (.ok (), store.holding location data)
    | .failed => (.error (), store)
    | .torn contents => (.error (), store.holding location contents)

/-- The target is replaced; the source has to be there. -/
def rename (works : Bool) (source target : Location) : Except Unit Unit × MavenStore :=
  match store.files.get source with
  | none => (.error (), store)
  | some contents =>
    if !works || decide (target ∈ store.dirs) then (.error (), store)
    else (.ok (),
      { store with files := Assoc.set (Table.erase store.files source) target contents })

/-- The names of the directories in a directory, sorted. -/
def listVersions (works : Bool) (location : Location) : Except Unit (List (List Char)) :=
  if !works then .error ()
  else .ok ((store.dirs.filterMap fun dir =>
    if dir.dropLast = location then dir.getLast? else none).insertionSort (· ≤ ·))

end MavenStore

/-! ### Calls -/

/-- The calls on the file system, on the quota store and on the clock. -/
inductive MavenCall where
  | quota (call : QuotaCall)
  | fileExists (location : Location)
  | readFile (location : Location)
  | createDirAll (location : Location)
  | writeFile (location : Location) (data : Bytes)
  | rename (source target : Location)
  | listVersions (location : Location)
  | now

abbrev MavenCall.Answer : MavenCall → Type
  | quota call => call.Answer
  | fileExists _ => Bool
  | readFile _ => Except Unit (Option Bytes)
  | createDirAll _ | writeFile .. | rename .. => Except Unit Unit
  | listVersions _ => Except Unit (List (List Char))
  | now => String

abbrev MavenCalls : Interface := ⟨MavenCall, MavenCall.Answer⟩

/-- What is decided at a moment: which calls work, and what the clock shows. -/
structure MavenMoment where
  works : Bool := true
  write : WriteOutcome := .done
  quotaWorks : Bool := true
  now : String := ""
deriving DecidableEq, Repr

def mavenHandle : Handler MavenCalls MavenStore MavenMoment
  | moment, .quota call, store =>
    let (answer, quotas) := quotaHandle moment.quotaWorks call store.quotas
    (answer, { store with quotas })
  | moment, .fileExists location, store => (store.fileExists moment.works location, store)
  | moment, .readFile location, store => (store.readFile moment.works location, store)
  | moment, .createDirAll location, store => store.createDirAll moment.works location
  | moment, .writeFile location data, store => store.writeFile moment.write location data
  | moment, .rename source target, store => store.rename moment.works source target
  | moment, .listVersions location, store => (store.listVersions moment.works location, store)
  | moment, .now, store => (moment.now, store)

/-! ### Checksums and metadata -/

inductive ChecksumAlgo where
  | sha1
  | md5
  | sha256
  | sha512
deriving DecidableEq, Repr

/-- The algorithm by the extension of the checksum file. -/
def ChecksumAlgo.fromExtension : String → Option ChecksumAlgo
  | "sha1" => some sha1
  | "md5" => some md5
  | "sha256" => some sha256
  | "sha512" => some sha512
  | _ => none

/-- The document that lists the versions of an artifact. -/
structure ArtifactMetadata where
  groupId : List Char
  artifactId : List Char
  latest : Option (List Char)
  release : Option (List Char)
  versions : List (List Char)
  lastUpdated : String
deriving DecidableEq, Repr

def generateArtifactMetadata (groupId artifactId : List Char) (versions : List (List Char))
    (now : String) : ArtifactMetadata where
  groupId := groupId
  artifactId := artifactId
  latest := versions.getLast?
  release := (versions.filter fun version => !"-SNAPSHOT".toList.isSuffixOf version).getLast?
  versions := versions
  lastUpdated := now

structure MavenConfig where
  tenantId : String
  quotaStore : Bool := true
  /-- The checksum in hexadecimal digits. -/
  compute : ChecksumAlgo → Bytes → Bytes
  /-- The text of an uploaded checksum, without white space at its ends. -/
  checksumText : Bytes → Bytes
  renderMetadata : ArtifactMetadata → Bytes

/-- The comparison takes the same time wherever the texts differ. -/
def verifyChecksum (config : MavenConfig) (data expected : Bytes) (algo : ChecksumAlgo) : Bool :=
  config.compute algo data = config.checksumText expected

/-! ### Requests -/

abbrev MavenProg (α : Type) := ExceptT Response (Prog MavenCalls) α

def query (call : MavenCall) : MavenProg call.Answer :=
  ExceptT.lift (Prog.perform (I := MavenCalls) call)

def overQuota {α : Type} (p : Prog QuotaCalls α) : Prog MavenCalls α :=
  p.translate fun call => Prog.perform (I := MavenCalls) (.quota call)

/-- Reserve bytes of the tenant, or refuse the request. -/
def reserve (config : MavenConfig) (bytes : ℕ) : MavenProg Unit :=
  ExceptT.mk (overQuota (reserveQuota config.quotaStore config.tenantId bytes).run)

/-- Correct the usage of the tenant; failures are only logged. -/
def adjust (config : MavenConfig) (delta : ℤ) : MavenProg Unit :=
  ExceptT.lift (overQuota (adjustQuotaUsage config.quotaStore config.tenantId delta))

/-- Write a temporary file and rename it. -/
def atomicWrite (location : Location) (data : Bytes) : MavenProg (Except Unit Unit) := do
  match ← query (.createDirAll location.dropLast) with
  | .error error => pure (.error error)
  | .ok _ => do
    match ← query (.writeFile (tempPath location) data) with
    | .error error => pure (.error error)
    | .ok _ => query (.rename (tempPath location) location)

/-- Write the checksums of a file beside it; failures are only logged. -/
def writeChecksumSidecars (config : MavenConfig) (location : Location) (data : Bytes) :
    MavenProg Unit := do
  let _ ← query (.writeFile (withSuffix ".sha1" location) (config.compute .sha1 data))
  let _ ← query (.writeFile (withSuffix ".md5" location) (config.compute .md5 data))
  pure ()

/-- The metadata for the versions that have a directory, if there are any. -/
def regenerateArtifactMetadata (config : MavenConfig) (groupId artifactId : List Char) :
    MavenProg (Option Bytes) := do
  match ← query (.listVersions (groupId.splitOn '.' ++ [artifactId])) with
  | .error _ => pure none
  | .ok [] => pure none
  | .ok versions => do
    let now ← query .now
    pure (some (config.renderMetadata (generateArtifactMetadata groupId artifactId versions now)))

/-- The coordinate of the metadata of the artifact. -/
def MavenCoordinate.metadata (coord : MavenCoordinate) : MavenCoordinate :=
  { coord with version := none, filename := some metadataName }

/-- The write of an upload; the bytes are given back if it fails. -/
def writeUpload (config : MavenConfig) (location : Location) (body : Bytes) (failure : String) :
    MavenProg Unit := do
  match ← atomicWrite location body with
  | .ok _ => pure ()
  | .error _ => do
    adjust config (-(body.length : ℤ))
    throw (errorJson 500 failure)

/-- The file that a checksum file belongs to. -/
def MavenCoordinate.base (coord : MavenCoordinate) (algorithm : String) : MavenCoordinate :=
  { coord with filename := coord.filename.map fun file =>
      (file.dropSuffix? ('.' :: algorithm.toList)).getD file }

/-- Refuse a checksum that does not match the file it is for, if that can be read. -/
def verifyBase (config : MavenConfig) (coord : MavenCoordinate) (algorithm : String)
    (algo : ChecksumAlgo) (body : Bytes) : MavenProg Unit := do
  match ← query (.readFile (artifactPath (coord.base algorithm))) with
  | .ok (some data) =>
    if !verifyChecksum config data body algo then
      throw (errorJson 409 "checksum mismatch: provided checksum does not match artifact content")
    else pure ()
  | _ => pure ()

/-- Refuse to overwrite a file of a release. -/
def refuseExisting (immutable : Bool) (location : Location) (message : String) : MavenProg Unit :=
  if immutable then do
    if ← query (.fileExists location) then throw (errorJson 409 message) else pure ()
  else pure ()

/-- An uploaded checksum has to match its file, and does not replace one of a release. -/
def putChecksum (config : MavenConfig) (coord : MavenCoordinate) (algorithm : String)
    (baseKind : MavenPathKind) (body : Bytes) : MavenProg Unit :=
  match ChecksumAlgo.fromExtension algorithm with
  | none => throw (errorJson 400 ("unsupported checksum algorithm: " ++ algorithm))
  | some algo => do
    verifyBase config coord algorithm algo body
    refuseExisting (!coord.isSnapshot && baseKind = .artifact) (artifactPath coord)
      "release checksum already exists and cannot be overwritten"
    writeUpload config (artifactPath coord) body "failed to write checksum"

/-- Uploaded metadata replaces what is there. -/
def putMetadata (config : MavenConfig) (coord : MavenCoordinate) (body : Bytes) :
    MavenProg Unit := do
  writeUpload config (artifactPath coord) body "failed to write metadata"
  writeChecksumSidecars config (artifactPath coord) body

/-- Regenerate the metadata of the artifact; failures are only logged. -/
def refreshMetadata (config : MavenConfig) (coord : MavenCoordinate) : MavenProg Unit := do
  match ← regenerateArtifactMetadata config coord.groupId coord.artifactId with
  | none => pure ()
  | some xml => do
    match ← atomicWrite (artifactPath coord.metadata) xml with
    | .error _ => pure ()
    | .ok _ => writeChecksumSidecars config (artifactPath coord.metadata) xml

/-- A file of a release is not replaced; the metadata is regenerated. -/
def putFile (config : MavenConfig) (coord : MavenCoordinate) (body : Bytes) : MavenProg Unit := do
  refuseExisting (!coord.isSnapshot) (artifactPath coord)
    "release artifact already exists and cannot be re-deployed"
  writeUpload config (artifactPath coord) body "failed to write artifact"
  writeChecksumSidecars config (artifactPath coord) body
  refreshMetadata config coord

def putParsed (config : MavenConfig) (coord : MavenCoordinate) (kind : MavenPathKind)
    (body : Bytes) : MavenProg Unit :=
  match kind with
  | .checksum algorithm baseKind => putChecksum config coord algorithm baseKind body
  | .artifactLevelMetadata | .versionLevelMetadata => putMetadata config coord body
  | .artifact => putFile config coord body

/-- **Upload an artifact, metadata or a checksum.** -/
def putArtifact (config : MavenConfig) (path : List Char) (body : Bytes) : MavenProg Response :=
  match parseMavenPath path with
  | .error error => throw (errorJson 400 error.toString)
  | .ok (coord, kind) => do
    reserve config body.length
    putParsed config coord kind body
    pure ⟨201, []⟩

/-- A file with its type and checksums. -/
structure Download where
  contentType : String
  checksumSha1 : Bytes
  checksumMd5 : Bytes
  data : Bytes
deriving DecidableEq, Repr

def contentTypeForPath (coord : MavenCoordinate) (kind : MavenPathKind) : String :=
  let ends (ext : String) : Bool := ext.toList.isSuffixOf (coord.filename.getD [])
  match kind with
  | .checksum .. => "text/plain"
  | .artifactLevelMetadata | .versionLevelMetadata => "application/xml"
  | .artifact =>
    if ends ".jar" then "application/java-archive"
    else if ends ".pom" || ends ".xml" then "application/xml"
    else if ends ".war" || ends ".ear" then "application/x-webarchive"
    else if ends ".aar" then "application/octet-stream"
    else if ends ".asc" then "application/pgp-signature"
    else if checksumExtensions.any ends then "text/plain"
    else "application/octet-stream"

def buildDownload (config : MavenConfig) (coord : MavenCoordinate) (kind : MavenPathKind)
    (data : Bytes) : Download where
  contentType := contentTypeForPath coord kind
  checksumSha1 := config.compute .sha1 data
  checksumMd5 := config.compute .md5 data
  data := data

/-- **Download an artifact, metadata or a checksum.** Missing metadata of an artifact is
regenerated. -/
def getArtifact (config : MavenConfig) (path : List Char) : MavenProg Download :=
  match parseMavenPath path with
  | .error error => throw (errorJson 400 error.toString)
  | .ok (coord, kind) => do
    match ← query (.readFile (artifactPath coord)) with
    | .ok (some data) => pure (buildDownload config coord kind data)
    | .ok none =>
      if kind = .artifactLevelMetadata then do
        match ← regenerateArtifactMetadata config coord.groupId coord.artifactId with
        | some xml => pure (buildDownload config coord kind xml)
        | none => throw (errorJson 404 "artifact not found")
      else throw (errorJson 404 "artifact not found")
    | .error _ => throw (errorJson 500 "failed to read artifact")

/-! ### What an access changes -/

/-- **Everything an access can do to the files.** -/
inductive Effect (store store' : MavenStore) : MavenCall → Prop
  | neither {call : MavenCall} (files : store'.files = store.files) : Effect store store' call
  | writes {location : Location} {data contents : Bytes}
      (files : store'.files = store.files.set location contents) :
      Effect store store' (.writeFile location data)
  | renames {source target : Location} {contents : Bytes}
      (files : store'.files = Assoc.set (Table.erase store.files source) target contents) :
      Effect store store' (.rename source target)

theorem effect_mavenHandle (moment : MavenMoment) (call : MavenCall) (store : MavenStore) :
    Effect store (mavenHandle moment call store).2 call := by
  cases call with
  | createDirAll location =>
    show Effect store (store.createDirAll moment.works location).2 _
    unfold MavenStore.createDirAll
    split_ifs <;> exact .neither rfl
  | writeFile location data =>
    show Effect store (store.writeFile moment.write location data).2 _
    unfold MavenStore.writeFile
    split_ifs
    · exact .neither rfl
    · cases moment.write with
      | failed => exact .neither rfl
      | _ => exact .writes rfl
  | rename source target =>
    show Effect store (store.rename moment.works source target).2 _
    unfold MavenStore.rename
    cases store.files.get source with
    | none => exact .neither rfl
    | some contents =>
      split_ifs
      · exact .neither rfl
      · exact .renames rfl
  | _ => exact .neither rfl

end Muli.Maven
