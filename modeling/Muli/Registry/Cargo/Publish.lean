/-
**The requests of the cargo registry.**

A publish looks into the index for the version, reserves the bytes, writes the crate file, and
appends a line to the index: it reads the whole file and replaces it. Yanking reads and replaces it
too. None of this is guarded by a lock.
-/

import Muli.Interaction.Typestate
import Muli.Registry.Cargo.Index

namespace Muli.Cargo

open Interaction

/-! ### Files -/

/-- Index files and crate files by path, and the quotas. -/
structure CargoStore where
  index : Assoc (List Char) (List IndexLine) := ∅
  crates : Assoc (List Char) Bytes := ∅
  quotas : QuotaTable := ∅
deriving DecidableEq, Repr

inductive StorageError where
  | invalidInput (label : String)
  | notFound
  | io
deriving DecidableEq, Repr

/-- Name and version have to be path components. -/
def cratePath (name version : String) : Except StorageError (List Char) :=
  if !validatePathComponent name then .error (.invalidInput "crate name")
  else if !validatePathComponent version then .error (.invalidInput "version")
  else .ok (crateFile name version)

def indexPath (name : String) : Except StorageError (List Char) :=
  if !validatePathComponent name then .error (.invalidInput "crate name")
    else .ok (indexPrefix name)

namespace CargoStore

variable (store : CargoStore)

def read {α : Type} (works : Bool) (files : Assoc (List Char) α) (path : List Char) :
    Except StorageError α :=
  if !works then .error .io
  else match files.get path with
    | none => .error .notFound
    | some contents => .ok contents

def readIndex (works : Bool) (name : String) : Except StorageError (List IndexLine) := do
  let path ← indexPath name
  read works store.index path

def readCrate (works : Bool) (name version : String) : Except StorageError Bytes := do
  let path ← cratePath name version
  read works store.crates path

/-- Write a crate file; a write that fails may leave a part. -/
def storeCrate (outcome : WriteOutcome) (name version : String) (data : Bytes) :
    Except StorageError Unit × CargoStore :=
  match cratePath name version with
  | .error error => (.error error, store)
  | .ok path =>
    match outcome with
    | .done => (.ok (), { store with crates := store.crates.set path data })
    | .failed => (.error .io, store)
    | .torn contents => (.error .io, { store with crates := store.crates.set path contents })

/-- Write the lines to a file of their own, which then replaces the index file. -/
def writeIndex (works : Bool) (name : String) (lines : List IndexLine) :
    Except StorageError Unit × CargoStore :=
  match indexPath name with
  | .error error => (.error error, store)
  | .ok path =>
    if works then (.ok (), { store with index := store.index.set path lines })
      else (.error .io, store)

/-- The lines of the index file, none if there is no file. -/
def linesOf (name : String) : List IndexLine := (store.index.get (indexPrefix name)).getD []

end CargoStore

/-! ### Calls -/

/-- The calls on the storage and on the quotas; an index is read in two ways. -/
inductive CargoCall where
  | quota (call : QuotaCall)
  | readIndex (name : String)
  | storeCrate (name version : String) (data : Bytes)
  | readCrate (name version : String)
  | createIndexDir (name : String)
  /-- The index file is read in order to be replaced. -/
  | loadIndex (name : String)
  | writeIndex (name : String) (lines : List IndexLine)

abbrev CargoCall.Answer : CargoCall → Type
  | quota call => call.Answer
  | readIndex _ | loadIndex _ => Except StorageError (List IndexLine)
  | readCrate .. => Except StorageError Bytes
  | storeCrate .. | createIndexDir _ | writeIndex .. => Except StorageError Unit

abbrev CargoCalls : Interface := ⟨CargoCall, CargoCall.Answer⟩

/-- What is decided at a moment: which calls work. -/
structure CargoMoment where
  works : Bool := true
  write : WriteOutcome := .done
  quotaWorks : Bool := true
deriving DecidableEq, Repr

def cargoHandle : Handler CargoCalls CargoStore CargoMoment
  | moment, .quota call, store =>
    let (answer, quotas) := quotaHandle moment.quotaWorks call store.quotas
    (answer, { store with quotas })
  | moment, .readIndex name, store => (store.readIndex moment.works name, store)
  | moment, .storeCrate name version data, store => store.storeCrate moment.write name version data
  | moment, .readCrate name version, store => (store.readCrate moment.works name version, store)
  | moment, .createIndexDir name, store =>
    ((indexPath name).bind fun _ => if moment.works then .ok () else .error .io, store)
  | moment, .loadIndex name, store => (store.readIndex moment.works name, store)
  | moment, .writeIndex name lines, store => store.writeIndex moment.works name lines

/-! ### Requests -/

structure CargoConfig where
  tenantId : String
  quotaStore : Bool := true
  parseMetadata : Bytes → Except String CrateMetadata
  isSemver : String → Bool
  sha256 : Bytes → String

abbrev CargoProg (α : Type) := ExceptT Response (Prog CargoCalls) α

def query (call : CargoCall) : CargoProg call.Answer :=
  ExceptT.lift (Prog.perform (I := CargoCalls) call)

def overQuota {α : Type} (p : Prog QuotaCalls α) : Prog CargoCalls α :=
  p.translate fun call => Prog.perform (I := CargoCalls) (.quota call)

def reserve (config : CargoConfig) (bytes : ℕ) : CargoProg Unit :=
  ExceptT.mk (overQuota (reserveQuota config.quotaStore config.tenantId bytes).run)

def adjust (config : CargoConfig) (delta : ℤ) : CargoProg Unit :=
  ExceptT.lift (overQuota (adjustQuotaUsage config.quotaStore config.tenantId delta))

/-- An error as cargo expects it. -/
def cargoError (status : ℕ) (message : String) : Response := ⟨status, [("detail", message)]⟩

def validateNameAndVersion (config : CargoConfig) (name version : String) : CargoProg Unit :=
  if !validateCrateName name then throw (cargoError 400 ("invalid crate name: " ++ name))
  else if !config.isSemver version then throw (cargoError 400 ("invalid version: " ++ version))
  else pure ()

/-- Refuse a version that the index has; an index that cannot be read has none. -/
def checkVersion (name version : String) : CargoProg Unit := do
  match ← query (.readIndex name) with
  | .ok lines =>
    if version ∈ versions lines then
      throw (cargoError 409 ("crate `" ++ name ++ "@" ++ version ++ "` already exists"))
    else pure ()
  | .error _ => pure ()

/-- Append a line to the index file, or make the file. -/
def appendIndexEntry (name : String) (line : IndexLine) : CargoProg (Except StorageError Unit) := do
  match ← query (.createIndexDir name) with
  | .error error => pure (.error error)
  | .ok _ => do
    match ← query (.loadIndex name) with
    | .ok lines => query (.writeIndex name (lines ++ [line]))
    | .error .notFound => query (.writeIndex name [line])
    | .error error => pure (.error error)

/-- The answer to a publish, without warnings. -/
def published : Response :=
  ⟨200, [("warnings.invalid_categories", "[]"), ("warnings.invalid_badges", "[]"),
    ("warnings.other", "[]")]⟩

/-- Check the version, reserve the bytes, store the crate, then its index line. -/
def publishCrate (config : CargoConfig) (metadata : CrateMetadata) (data : Bytes) :
    CargoProg Response := do
  validateNameAndVersion config metadata.name metadata.version
  checkVersion metadata.name metadata.version
  reserve config data.length
  match ← query (.storeCrate metadata.name metadata.version data) with
  | .error _ => do
    adjust config (-(data.length : ℤ))
    throw (cargoError 500 "failed to store crate")
  | .ok _ => do
    match ← appendIndexEntry metadata.name (.entry (indexEntry metadata (config.sha256 data))) with
    | .error _ => throw (cargoError 500 "failed to update index")
    | .ok _ => pure published

/-- **Publish a crate** from the body of the request. -/
def publish (config : CargoConfig) (body : Bytes) : CargoProg Response :=
  match parsePublishBody config.parseMetadata body with
  | .error error => throw (cargoError 400 error)
  | .ok parsed => publishCrate config parsed.metadata parsed.crateData

/-- Set the flag of a version, if the index has it. -/
def updateIndexVersion (name version : String) (yanked : Bool) :
    CargoProg (Except StorageError Bool) := do
  match ← query (.loadIndex name) with
  | .error error => pure (.error error)
  | .ok lines =>
    if version ∈ versions lines then do
      match ← query (.writeIndex name (withYanked version yanked lines)) with
      | .error error => pure (.error error)
      | .ok _ => pure (.ok true)
    else pure (.ok false)

/-- Set the flag of a version, or answer that there is none. -/
def setYanked (config : CargoConfig) (yanked : Bool) (failure name version : String) :
    CargoProg Response := do
  validateNameAndVersion config name version
  match ← updateIndexVersion name version yanked with
  | .ok true => pure ⟨200, [("ok", "true")]⟩
  | .ok false => throw (cargoError 404 "version not found")
  | .error _ => throw (cargoError 500 failure)

def yank (config : CargoConfig) (name version : String) : CargoProg Response :=
  setYanked config true "failed to yank" name version

def unyank (config : CargoConfig) (name version : String) : CargoProg Response :=
  setYanked config false "failed to unyank" name version

/-- The bytes of a version. -/
def download (config : CargoConfig) (name version : String) : CargoProg Bytes := do
  validateNameAndVersion config name version
  match ← query (.readCrate name version) with
  | .ok data => pure data
  | .error _ => throw (cargoError 404 "crate not found")

/-- The index file of a crate. -/
def serveIndex (name : String) : CargoProg (List IndexLine) :=
  if !validateCrateName name then throw ⟨400, [("", "invalid crate name: " ++ name)]⟩
  else do
    match ← query (.readIndex name) with
    | .ok lines => pure lines
    | .error _ => throw ⟨404, []⟩

/-! ### What an access changes -/

/-- **Everything an access can do to the files.** -/
inductive Effect (store store' : CargoStore) : CargoCall → Prop
  | neither {call : CargoCall} (index : store'.index = store.index)
      (crates : store'.crates = store.crates) : Effect store store' call
  | stores {name version : String} {data contents : Bytes} (index : store'.index = store.index)
      (crates : store'.crates = store.crates.set (crateFile name version) contents) :
      Effect store store' (.storeCrate name version data)
  | writes {name : String} {lines : List IndexLine}
      (index : store'.index = store.index.set (indexPrefix name) lines)
      (crates : store'.crates = store.crates) : Effect store store' (.writeIndex name lines)

theorem cratePath_of_ok (isPath : cratePath name version = .ok path) :
    path = crateFile name version := by
  unfold cratePath at isPath
  split_ifs at isPath
  exact (Except.ok.inj isPath).symm

theorem indexPath_of_ok (isPath : indexPath name = .ok path) : path = indexPrefix name := by
  unfold indexPath at isPath
  split_ifs at isPath
  exact (Except.ok.inj isPath).symm

theorem effect_cargoHandle (moment : CargoMoment) (call : CargoCall) (store : CargoStore) :
    Effect store (cargoHandle moment call store).2 call := by
  cases call with
  | storeCrate name version data =>
    show Effect store (store.storeCrate moment.write name version data).2 _
    unfold CargoStore.storeCrate
    cases isPath : cratePath name version with
    | error error => exact .neither rfl rfl
    | ok path =>
      obtain rfl := cratePath_of_ok isPath
      cases moment.write with
      | failed => exact .neither rfl rfl
      | _ => exact .stores rfl rfl
  | writeIndex name lines =>
    show Effect store (store.writeIndex moment.works name lines).2 _
    unfold CargoStore.writeIndex
    cases isPath : indexPath name with
    | error error => exact .neither rfl rfl
    | ok path =>
      obtain rfl := indexPath_of_ok isPath
      split_ifs
      · exact .writes rfl rfl
      · exact .neither rfl rfl
  | _ => exact .neither rfl rfl

end Muli.Cargo
