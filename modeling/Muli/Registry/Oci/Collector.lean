/-
**The garbage collector of the OCI registry.**

A run takes a lock file, reads which digests the manifests name, lists the blobs, reads the
manifests again, deletes the blobs that none of them names, and removes the lock file. A lock file
that is an hour old is taken for one that a crashed run has left.
-/

import Muli.Data.Listing
import Muli.Registry.Oci.Handlers

namespace Muli.Oci

open Interaction

/-! ### Manifests -/

/-- A JSON document; the text of a number is not read. -/
inductive Json where
  | null
  | bool (value : Bool)
  | number
  | string (value : String)
  | array (elements : List Json)
  | object (fields : List (String × Json))

namespace Json

/-- A field of an object; of two fields with one name the last one counts. -/
def field (name : String) : Json → Option Json
  | object fields => (fields.reverse.find? fun entry => entry.1 = name).map Prod.snd
  | _ => none

def asArray : Json → Option (List Json)
  | array elements => some elements
  | _ => none

def asStr : Json → Option String
  | string value => some value
  | _ => none

def digest (json : Json) : Option String := (json.field "digest").bind asStr

def digestsOf (json : Json) (name : String) : List String :=
  (((json.field name).bind asArray).getD []).filterMap digest

end Json

def referencedDigests (json : Json) : List String :=
  json.digestsOf "layers" ++ ((json.field "config").bind Json.digest).toList ++
    json.digestsOf "manifests"

/-! ### Calls -/

/-- The files of a tenant, and the time at which the lock file was made, if it is there. -/
structure GcWorld where
  store : OciStore := {}
  lock : Option Timestamp := none

inductive LockAttempt where
  | created
  | alreadyExists
  | io
deriving DecidableEq

structure GcReport where
  deletedBlobs : ℕ := 0
  evictedBlobs : ℕ := 0
  evictedBytes : ℕ := 0
deriving DecidableEq, Repr

inductive GcCall where
  | storage (call : OciCall)
  | createTenantDir
  | tryCreateLock
  | isLockStale
  | removeLock
  | finish (success : Bool)

abbrev GcCall.Answer : GcCall → Type
  | storage call => call.Answer
  | createTenantDir => Except StorageError Unit
  | tryCreateLock => LockAttempt
  | isLockStale => Bool
  | removeLock | finish _ => Unit

abbrev GcCalls : Interface := ⟨GcCall, GcCall.Answer⟩

structure GcMoment where
  storage : OciMoment := {}
  works : Bool := true
  now : Timestamp := 0

def staleAge : ℤ := 3600 * 1000000000

def gcHandle (config : OciConfig) : Handler GcCalls GcWorld GcMoment
  | moment, .storage call, world =>
    let (answer, store) := ociHandle config moment.storage call world.store
    (answer, { world with store })
  | moment, .createTenantDir, world => (if moment.works then .ok () else .error .io, world)
  | moment, .tryCreateLock, world =>
    match world.lock, moment.works with
    | some _, _ => (.alreadyExists, world)
    | none, true => (.created, { world with lock := some moment.now })
    | none, false => (.io, world)
  | moment, .isLockStale, world =>
    match world.lock with
    | some modified => (moment.works && decide (staleAge ≤ moment.now - modified), world)
    | none => (false, world)
  | moment, .removeLock, world => ((), if moment.works then { world with lock := none } else world)
  | _, .finish _, world => ((), world)

/-! ### A run -/

/-- The limit on the size, the JSON parser of another crate, and the order in which a set is
iterated. -/
structure GcConfig where
  maxSizeBytes : ℕ := 0
  parse : Bytes → Option Json
  order : Scan String := Scan.forward

abbrev GcProg (α : Type) := ExceptT StorageError (Prog GcCalls) α

def inquire (call : GcCall) : GcProg call.Answer := ExceptT.lift (Prog.perform (I := GcCalls) call)

def lockError : StorageError := .invalidInput

/-- Make the lock file; one that is stale is removed, and then there is one more attempt. -/
def acquireLock : GcProg Unit := do
  match ← inquire .createTenantDir with
  | .error error => throw error
  | .ok _ => do
    match ← inquire .tryCreateLock with
    | .created => pure ()
    | .io => throw .io
    | .alreadyExists => do
      if ← inquire .isLockStale then do
        inquire .removeLock
        match ← inquire .tryCreateLock with
        | .created => pure ()
        | _ => throw lockError
      else throw lockError

/-- The digests that the stored manifests name; one that does not parse names none. -/
def GcConfig.references (config : GcConfig) (manifests : List Bytes) : List String :=
  manifests.flatMap fun data => ((config.parse data).map referencedDigests).getD []

def collectManifestData (result : List Bytes) (file : String × String) : GcProg (List Bytes) := do
  match ← inquire (.storage (.readManifest file)) with
  | .ok data => pure (result ++ [data])
  | .error error => throw error

/-- The manifests, read file by file: what is written meanwhile is read or not. -/
def allManifests : GcProg (List Bytes) := do
  match ← inquire (.storage .listManifests) with
  | .ok files => files.foldlM collectManifestData []
  | .error error => throw error

def collectReferencedDigests (config : GcConfig) : GcProg (List String) := do
  let manifests ← allManifests
  pure (config.references manifests)

def listAllBlobs : GcProg (List String) := do
  match ← inquire (.storage .listBlobs) with
  | .ok digests => pure digests
  | .error error => throw error

/-- Delete a blob; a failure is only logged. -/
def deleteUnreferenced (report : GcReport) (digest : String) : GcProg GcReport := do
  match ← inquire (.storage (.deleteBlob digest)) with
  | .ok _ => pure { report with deletedBlobs := report.deletedBlobs + 1 }
  | .error _ => pure report

/-- The blobs with their sizes, as far as these can be read. -/
def measure (sizes : List (String × ℕ)) (digest : String) : GcProg (List (String × ℕ)) := do
  match ← inquire (.storage (.blobSize digest)) with
  | .ok size => pure (sizes ++ [(digest, size)])
  | .error _ => pure sizes

/-- Delete blobs, the smallest first, until the rest is within the limit. -/
def evict (maxSizeBytes : ℕ) : List (String × ℕ) → ℕ → GcReport → GcProg GcReport
  | [], _, report => pure report
  | (digest, size) :: later, total, report =>
    if total ≤ maxSizeBytes then pure report
    else do
      match ← inquire (.storage (.deleteBlob digest)) with
      | .ok _ =>
        evict maxSizeBytes later (total - size) { report with
          evictedBlobs := report.evictedBlobs + 1
          evictedBytes := report.evictedBytes + size }
      | .error _ => evict maxSizeBytes later total report

def evictLru (config : GcConfig) (report : GcReport) : GcProg GcReport := do
  let blobs ← listAllBlobs
  let sizes ← blobs.foldlM measure []
  let total := (sizes.map Prod.snd).sum
  if total ≤ config.maxSizeBytes then pure report
  else evict config.maxSizeBytes (sizes.insertionSort fun a b => a.2 ≤ b.2) total report

/-- The blobs that are listed and that no manifest names, in the order of a set. -/
def unreferenced (config : GcConfig) (listed references : List String) : List String :=
  config.order.order (listed.dedup.filter fun digest => digest ∉ references)

def runInner (config : GcConfig) : GcProg GcReport := do
  -- what is read here is counted and logged, but not used
  let _ ← collectReferencedDigests config
  let listed ← listAllBlobs
  let references ← collectReferencedDigests config
  let report ← (unreferenced config listed references).foldlM deleteUnreferenced {}
  if 0 < config.maxSizeBytes then evictLru config report else pure report

/-- **A run of the collector.** -/
def run (config : GcConfig) : GcProg GcReport := do
  acquireLock
  let result ← ExceptT.lift (runInner config).run
  inquire .removeLock
  ExceptT.mk (pure result)

def finishing {ε α : Type} (p : ExceptT ε (Prog GcCalls) α) : Prog GcCalls Unit :=
  p.run >>= fun outcome => Prog.perform (I := GcCalls) (.finish outcome.isOk) >>= fun _ => .pure ()

def collectorThread (config : GcConfig) : Prog GcCalls Unit := finishing (run config)

abbrev GcHistory := List (ℕ × Event GcCalls GcWorld GcMoment)

end Muli.Oci
