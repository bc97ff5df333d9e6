/-
**Publishing, yanking and unyanking Luat packages.**

A publish checks the caller and the tarball before it takes the lock; under the lock it looks for
the release again, reserves the bytes, and stores the version. A yank flips the flag of a line under
the lock.
-/

import Muli.Registry.Luat.Storage

namespace Muli.Luat

open Interaction Prog.CallsOnly Prog.Within

/-! ### Requests -/

inductive TarballError where
  | invalid (message : String)
  | tooLarge (message : String)
deriving DecidableEq, Repr

structure Inspected where
  manifestSource : String
  readme : Option String := none
  files : List String := []
deriving DecidableEq, Repr

/-- The parts of a package's `luat.toml` the registry stores and serves. -/
structure Manifest where
  name : String
  version : String
  description : Option String := none
  license : Option String := none
  repository : Option String := none
  keywords : List String := []
  luat : Option String := none
  dependencies : List (String × String) := []
deriving DecidableEq, Repr

/-- What is used of other crates, and whether there is a quota store. -/
structure LuatServer where
  semver : Semver
  quotaStore : Bool := true
  /-- `tarball::inspect`; `none` where it panics. -/
  inspect : Bytes → Option (Except TarballError Inspected)
  /-- `manifest::parse`. -/
  parseManifest : String → Except String Manifest
  sha256Hex : Bytes → String

structure PublishRequest where
  tenantId : String
  token : Option RegistryToken
  scope : String
  name : String
  version : String
  /-- The `Content-Length`, if it is given and is a number. -/
  contentLength : Option ℕ := none
  /-- The body, unless its stream breaks off. -/
  body : Option Bytes

structure YankRequest where
  tenantId : String
  token : Option RegistryToken
  scope : String
  name : String
  version : String
  yanked : Bool

/-! ### Programs of handlers -/

/-- A handler stops early with an answer, or without one when its request is dropped. -/
abbrev HandlerProg (α : Type) := ExceptT (Option Response) (Prog LuatCalls) α

def overIdentity {α : Type} (p : IdentityProg α) : HandlerProg α :=
  ExceptT.adapt some (ExceptT.mk
    (p.run.translate fun call => Prog.perform (I := LuatCalls) (.identity call)))

def overQuota {α : Type} (p : Prog QuotaCalls α) : Prog LuatCalls α :=
  p.translate fun call => Prog.perform (I := LuatCalls) (.quota call)

/-- What a handler answers where a storage function stops. -/
def Stop.answer (what : String) : Stop → Option Response
  | failed => some (errorJson 500 what)
  | dropped => none

def storing {α : Type} (what : String) (p : StoreProg α) :
    HandlerProg α := p.adapt (Stop.answer what)

/-- Wait for the lock; a request that is still waiting after so many polls does nothing more. -/
def acquire : ℕ → HandlerProg Unit
  | 0 => throw none
  | waits + 1 => do
    if ← ExceptT.lift (Prog.perform (I := LuatCalls) .tryLock) then pure () else acquire waits

/-- **Run the body under the lock**; the guard is dropped on every path. -/
def withLock {α : Type} (waits : ℕ) (body : HandlerProg α) : HandlerProg α := do
  acquire waits
  let outcome ← ExceptT.lift body.run
  ExceptT.lift (Prog.perform (I := LuatCalls) .unlock)
  ExceptT.mk (pure outcome)

/-! ### Publishing -/

def maxCompressedBytes : ℕ := 10 * 1024 * 1024

def tooLarge : Response :=
  errorJson 413 ("tarball is larger than " ++ maxCompressedBytes.repr ++ " bytes compressed")

def conflict (scope name version : String) : Response :=
  errorJson 409 (fullName scope name ++ "@" ++ version ++ " already exists")

structure Upload where
  package : PackageDir
  version : String
  tarball : Bytes
  inspected : Inspected
  manifest : Manifest
  publishedAt : Timestamp

section Server

variable (server : LuatServer)

namespace Upload

def fullName (upload : Upload) : String := Luat.fullName upload.package.scope upload.package.name

def cksum (upload : Upload) : String := "sha256:" ++ server.sha256Hex upload.tarball

def page (upload : Upload) : VersionMeta where
  name := upload.fullName
  vers := upload.version
  description := upload.manifest.description
  license := upload.manifest.license
  repository := upload.manifest.repository
  keywords := upload.manifest.keywords
  readme := upload.inspected.readme
  dependencies := upload.manifest.dependencies
  files := upload.inspected.files
  luat := upload.manifest.luat
  cksum := upload.cksum server
  size := upload.tarball.length
  publishedAt := upload.publishedAt

def entry (upload : Upload) : IndexEntry where
  name := upload.fullName
  vers := upload.version
  deps := upload.manifest.dependencies
  cksum := upload.cksum server
  luat := upload.manifest.luat
  yanked := false

end Upload

/-- Inspect the tarball and compare its manifest with the URL. -/
def checkTarball (scope name version : String) (tarball : Bytes) :
    Except Response (Inspected × Manifest) :=
  match server.inspect tarball with
  | none => .error (errorJson 500 "tarball inspection failed")
  | some (.error (.invalid message)) => .error (errorJson 400 message)
  | some (.error (.tooLarge message)) => .error (errorJson 413 message)
  | some (.ok inspected) =>
    match server.parseManifest inspected.manifestSource with
    | .error message => .error (errorJson 400 message)
    | .ok manifest =>
      if manifest.name ≠ fullName scope name ∨ manifest.version ≠ version then
        .error (errorJson 400 ("luat.toml declares " ++ manifest.name ++ "@" ++ manifest.version ++
          " but the URL publishes " ++ fullName scope name ++ "@" ++ version))
      else .ok (inspected, manifest)

/-- The body, read with a hard cap. -/
def readBody (body : Option Bytes) : Option Bytes :=
  body.filter fun tarball => tarball.length ≤ maxCompressedBytes

def prepare (request : PublishRequest) : HandlerProg Upload := do
  overIdentity (authorize server.semver request.tenantId request.token request.scope request.name
    request.version)
  if request.contentLength.any fun declared => declared > maxCompressedBytes then
    throw (some tooLarge)
  else
    match packageDir request.tenantId request.scope request.name with
    | none => throw (some (errorJson 500 "failed to read package index"))
    | some package => do
      if ← storing "failed to read package index"
          (versionExists server.semver package request.version) then
        throw (some (conflict request.scope request.name request.version))
      else
        match readBody request.body with
        | none => throw (some tooLarge)
        | some tarball =>
          match checkTarball server request.scope request.name request.version tarball with
          | .error response => throw (some response)
          | .ok (inspected, manifest) => do
            let publishedAt ← ExceptT.lift (Prog.perform (I := LuatCalls) .now)
            pure ⟨package, request.version, tarball, inspected, manifest, publishedAt⟩

def created (upload : Upload) : Response :=
  ⟨201, [("name", upload.fullName), ("vers", upload.version), ("cksum", upload.cksum server)]⟩

/-- Reserve the bytes and store the version; a reservation is given back where that fails. -/
def storeReserved (upload : Upload) : HandlerProg Response := do
  let size := upload.tarball.length
  ExceptT.adapt some (ExceptT.mk
    (overQuota (reserveQuota server.quotaStore upload.package.tenantId size).run))
  goOn.adapt fun _ => none
  match ← ExceptT.lift
      (storeVersion server.semver upload.package upload.tarball (upload.page server)
      (upload.entry server)).run with
  | .ok _ => pure (created server upload)
  | .error .failed => do
    ExceptT.lift (overQuota
      (adjustQuotaUsage server.quotaStore upload.package.tenantId (-(size : ℤ))))
    throw (some (errorJson 500 "failed to store package"))
  | .error .dropped => throw none

/-- What a publish does under the lock. A concurrent publish may have won the race. -/
def storeUpload (upload : Upload) : HandlerProg Response := do
  if ← storing "failed to read package index"
      (versionExists server.semver upload.package upload.version) then
    throw (some (conflict upload.package.scope upload.package.name upload.version))
  else storeReserved server upload

/-- **Publish a version.** -/
def publish (waits : ℕ) (request : PublishRequest) : HandlerProg Response := do
  let upload ← prepare server request
  withLock waits (storeUpload server upload)

/-! ### Yanking -/

def flagRelease (request : YankRequest) : HandlerProg Response :=
  match packageDir request.tenantId request.scope request.name with
  | none => throw (some (errorJson 500 "failed to update package index"))
  | some package => do
    if ← storing "failed to update package index"
        (setYanked server.semver package request.version request.yanked) then
      pure ⟨200, [("name", fullName request.scope request.name), ("vers", request.version),
        ("yanked", if request.yanked then "true" else "false")]⟩
    else throw (some (errorJson 404 "version not found"))

/-- **Yank or unyank a version.** -/
def yank (waits : ℕ) (request : YankRequest) : HandlerProg Response := do
  overIdentity (authorize server.semver request.tenantId request.token request.scope request.name
    request.version)
  withLock waits (flagRelease server request)

/-! ### Side by side -/

inductive LuatRequest where
  | publish (request : PublishRequest)
  | yank (request : YankRequest)

def LuatRequest.program (waits : ℕ) : LuatRequest → Prog LuatCalls Unit
  | publish request => asThread (Luat.publish server waits request)
  | yank request => asThread (Luat.yank server waits request)

/-- Writes in flight land, at any time. -/
def landings : ℕ → Prog LuatCalls Unit
  | 0 => pure ()
  | n + 1 => do
    Prog.perform (I := LuatCalls) .land
    landings n

/-- The calls of requests that run side by side, with up to `n` late landings (thread 0). -/
def registryHistory (n : ℕ) (requests : List (ℕ × LuatRequest)) (world : LuatWorld)
    (schedule : List (ℕ × LuatMoment)) : List (ℕ × Event LuatCalls LuatWorld LuatMoment) :=
  Pool.trace luatHandle
    ⟨landings n :: requests.map fun (waits, request) => request.program server waits,
      world⟩ schedule

end Server

/-! ### Before the lock -/

/-- The lookups of a request before it takes the lock. -/
def LuatCall.Looks : LuatCall → Prop
  | identity _ | readIndex _ | now | stillThere => True
  | _ => False

theorem goOn_looks : goOn.run.CallsOnly LuatCall.Looks := by
  refine .exceptCall trivial fun stays => ?_
  cases stays <;> exact .pure _

theorem readIndex_looks (package : PackageDir) : (readIndex package).run.CallsOnly LuatCall.Looks :=
  exceptBind (perform trivial) fun _ =>
    exceptBind goOn_looks fun _ => pure _

theorem versionExists_looks (semver : Semver) (package : PackageDir) (version : String) :
    (versionExists semver package version).run.CallsOnly LuatCall.Looks := by
  refine .exceptBind (readIndex_looks package) fun lines => ?_
  cases lines <;> exact .pure _

theorem overIdentity_looks {α : Type} (p : IdentityProg α) :
    (overIdentity p).run.CallsOnly LuatCall.Looks :=
  Prog.Within.exceptAdapt some (p := .mk _)
    (.translate p.run fun _ => perform trivial)

theorem prepare_looks (server : LuatServer) (request : PublishRequest) :
    (prepare server request).run.CallsOnly LuatCall.Looks := by
  refine .exceptBind (overIdentity_looks _) fun _ => ?_
  split_ifs
  · exact .pure _
  cases packageDir request.tenantId request.scope request.name with
  | none => exact .pure _
  | some package =>
    refine .exceptBind
      (.exceptAdapt _ (versionExists_looks server.semver package request.version))
      fun isThere => ?_
    split_ifs
    · exact .pure _
    cases readBody request.body with
    | none => exact .pure _
    | some tarball =>
      dsimp only
      cases checkTarball server request.scope request.name request.version tarball with
      | error response => exact .pure _
      | ok checked =>
        exact .exceptCall trivial fun _ => .pure _

end Muli.Luat
