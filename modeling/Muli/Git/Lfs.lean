/-
**Large files: who may fetch them, and through which repository.**

The operation of a batch stands in its body, while the middleware derives the permission from the
method; and objects are stored for a tenant, whichever repository they came through.

* `lfs_fetch_iff` — **exactly when a token that may clone a repository can fetch its objects.**
* `uploads_not_heard` — **an object that came through one repository is not noticed through another
  one as long as nobody asks for it there.**
-/

import Muli.Git.Ssh
import Muli.Interaction.Isolation

namespace Muli.Git

open Interaction Text List

/-! ### The handlers -/

abbrev LfsObjects := (tenantId oid : String) → Option Bytes

structure LfsServer where
  maxObjectSize : ℕ := 0
  /-- The URLs of a storage that is asked directly. -/
  presigned : Option ((tenantId oid : String) → String) := none
  sha256 : Bytes → String

/-- 64 hexadecimal digits, each of them one byte. -/
def validateOid (oid : String) : Bool :=
  oid.toList.length == 64 && oid.toList.all fun c => c.isDigit || ('a' ≤ c && c ≤ 'f')

structure ObjectSpec where
  oid : String
  size : ℕ
deriving DecidableEq, Repr

structure Actions where
  upload : Option String := none
  download : Option String := none
  verify : Option String := none
deriving DecidableEq, Repr

structure ObjectResponse extends ObjectSpec where
  authenticated : Option Bool := none
  actions : Option Actions := none
  error : Option (ℕ × String) := none
deriving DecidableEq, Repr

inductive Operation where
  | upload
  | download
deriving DecidableEq, Repr

inductive LfsRequest where
  | batch (operation : Operation) (objects : List ObjectSpec)
  | verify (object : ObjectSpec)
  | download (oid : String)
  | upload (oid : String) (contentLength : ℕ) (body : Bytes)
deriving DecidableEq, Repr

inductive LfsAnswer where
  | batch (objects : List ObjectResponse)
  | object (data : Bytes)
  | ok
  | error (status : ℕ) (message : String)
deriving DecidableEq, Repr

section Handlers

variable (server : LfsServer) (tenantId baseUrl : String)

def buildDownloadResponse (objects : LfsObjects) (obj : ObjectSpec) : ObjectResponse :=
  match server.presigned with
  | some url =>
    { obj with
      authenticated := some true
      actions := some { download := some (url tenantId obj.oid) } }
  | none =>
    match objects tenantId obj.oid with
    | some data =>
      ⟨⟨obj.oid, data.length⟩, none, some { download := some (baseUrl ++ "/" ++ obj.oid) }, none⟩
    | none => { obj with error := some (404, "Not found") }

def buildUploadResponse (objects : LfsObjects) (obj : ObjectSpec) : ObjectResponse :=
  if (objects tenantId obj.oid).isSome then { obj with }
  else
    let href := (server.presigned.map fun url => url tenantId obj.oid).getD
      (baseUrl ++ "/" ++ obj.oid)
    { obj with actions := some { upload := some href, verify := some (baseUrl ++ "/verify") } }

def batchObject (operation : Operation) (objects : LfsObjects) (obj : ObjectSpec) :
    ObjectResponse :=
  if !validateOid obj.oid then { obj with error := some (422, "invalid oid") }
  else
    match operation with
    | .download => buildDownloadResponse server tenantId baseUrl objects obj
    | .upload => buildUploadResponse server tenantId baseUrl objects obj

/-- An object that is there already is not written again. -/
def putObject (oid : String) (contentLength : ℕ) (body : Bytes) (objects : LfsObjects) :
    LfsAnswer × LfsObjects :=
  let tooLarge (size : ℕ) : LfsAnswer :=
    .error 413 s!"object size {size} exceeds limit {server.maxObjectSize}"
  if 0 < server.maxObjectSize ∧ server.maxObjectSize < contentLength then
    (tooLarge contentLength, objects)
  else if (objects tenantId oid).isSome then (.ok, objects)
  else if 0 < server.maxObjectSize ∧ server.maxObjectSize < body.length then
    (tooLarge body.length, objects)
  else if server.sha256 body ≠ oid then
    (.error 422 ("digest mismatch: expected " ++ oid ++ ", got " ++ server.sha256 body), objects)
  else (.ok, Function.update objects tenantId (Function.update (objects tenantId) oid (some body)))

def objectAnswer (oid : String) (objects : LfsObjects) (answer : Bytes → LfsAnswer) : LfsAnswer :=
  if !validateOid oid then .error 422 "invalid oid"
  else (objects tenantId oid).elim (.error 404 "object not found") answer

/-- The handlers get the tenant of the request. The repository on its path only enters the URLs. -/
def lfsHandle (objects : LfsObjects) : LfsRequest → LfsAnswer × LfsObjects
  | .batch operation wanted =>
    (.batch (wanted.map (batchObject server tenantId baseUrl operation objects)), objects)
  | .verify obj =>
    (objectAnswer tenantId obj.oid objects fun data =>
      if data.length = obj.size then .ok
      else .error 422 s!"size mismatch: expected {obj.size}, got {data.length}", objects)
  | .download oid => (objectAnswer tenantId oid objects .object, objects)
  | .upload oid contentLength body =>
    if !validateOid oid then (.error 422 "invalid oid", objects)
    else putObject server tenantId oid contentLength body objects

end Handlers

/-! ### Fetching -/

/-- The batch has a download for each of the objects, and each download has the bytes. -/
def Serves (server : LfsServer) (tenantId baseUrl : String) (objects : LfsObjects)
    (wanted : List ObjectSpec) : Prop :=
  ∀ obj ∈ wanted, (batchObject server tenantId baseUrl .download objects obj).error = none ∧
    (∃ actions, (batchObject server tenantId baseUrl .download objects obj).actions = some actions ∧
      actions.download.isSome = true) ∧
    ∃ data, objects tenantId obj.oid = some data ∧
      (lfsHandle server tenantId baseUrl objects (.download obj.oid)).1 = .object data

theorem serves_of_stored
    (stored : ∀ obj ∈ wanted, validateOid obj.oid = true ∧ (objects tenantId obj.oid).isSome = true)
    (server : LfsServer) (baseUrl : String) : Serves server tenantId baseUrl objects wanted := by
  intro obj mem
  obtain ⟨valid, isStored⟩ := stored obj mem
  obtain ⟨data, isData⟩ := Option.isSome_iff_exists.mp isStored
  simp only [batchObject, buildDownloadResponse, lfsHandle, objectAnswer, valid, isData,
    Bool.not_true, Bool.false_eq_true, if_false]
  cases server.presigned <;> simp

section Fetching

variable {clock : Clock} {auth : GitAuth} {repoStore : RepositoryStore}
  {collaboratorStore : CollaboratorStore} {token : GitToken} {repo : Repository} {op : GitOp}
  {request : Request}

theorem required_of_not_service (sends : Sends clock auth token repo op request)
    (noService : servicePath request.path = false) : request.required = op.method.permission := by
  obtain ⟨reached, isReached, rfl, -⟩ := sends.reaches
  obtain ⟨⟨op, captured⟩, isRoute, rest⟩ := Option.bind_eq_some_iff.mp isReached
  obtain ⟨text, -, -, serves⟩ := route_spec isRoute
  obtain ⟨decoded, -, rfl⟩ := Option.map_eq_some_iff.mp rest
  exact (requiredPermission_of_not_service noService).trans (permission_of_servedBy serves)

/-- A batch needs the permission to push, whatever its operation. -/
theorem required_batch (sends : Sends clock auth token repo .lfsBatch request) :
    request.required = .push := by
  refine required_of_not_service sends ?_
  obtain ⟨reached, isReached, isOp, -⟩ := sends.reaches
  obtain ⟨⟨op, captured⟩, isRoute, rest⟩ := Option.bind_eq_some_iff.mp isReached
  obtain ⟨decoded, -, rfl⟩ := Option.map_eq_some_iff.mp rest
  obtain rfl := isOp
  obtain ⟨text, isPath, isMatch, -⟩ := route_spec isRoute
  have batch : endsWith "/info/lfs/objects/batch" request.path = true := by
    rw [isPath]
    exact endsWith_of_match ["info", "lfs", "objects", "batch"] isMatch (by decide) (by decide)
  rw [servicePath, endsWith_eq_false batch (by decide), endsWith_eq_false batch (by decide),
    endsWith_eq_false batch (by decide)]
  rfl

/-- The path of a download ends with the oid, which has no slash. -/
theorem required_download (sends : Sends clock auth token repo .lfsDownload request)
    (valid : validateOid oid = true) (ends : oid.toList <:+ request.path) :
    request.required = .pull := by
  refine required_of_not_service sends ?_
  rw [validateOid, Bool.and_eq_true, beq_iff_eq, all_eq_true] at valid
  obtain ⟨long, hex⟩ := valid
  have noSlash : '/' ∉ oid.toList := fun slash => absurd (hex _ slash) (by decide)
  have off : ∀ final : String, '/' ∈ final.toList → final.toList.length ≤ 64 →
      endsWith final request.path = false := by
    intro final slash short
    rw [endsWith, decide_eq_false_iff_not]
    intro finishes
    exact noSlash ((suffix_of_suffix_length_le finishes ends (long ▸ short)).subset slash)
  rw [servicePath, off "/info/refs" (by decide) (by decide), off "/git-receive-pack" (by decide)
    (by decide), off "/git-upload-pack" (by decide) (by decide)]
  rfl

/-- The batch and every download are let through, and answered with the objects. -/
def Fetches (clock : Clock) (auth : GitAuth) (server : LfsServer) (tenantId baseUrl : String)
    (objects : LfsObjects) (wanted : List ObjectSpec) (batch : Request)
    (download : ObjectSpec → Request) : Prop :=
  (∃ user, authMiddleware clock (some auth) batch = .ok user) ∧
    (∀ obj ∈ wanted, ∃ user, authMiddleware clock (some auth) (download obj) = .ok user) ∧
    Serves server tenantId baseUrl objects wanted

/-- The middleware reads the same names in the path. -/
theorem pathRepo_congr {other : Request}
    (names : extractRepoFromPath request.path = extractRepoFromPath other.path)
    (tenant : request.tenantId = other.tenantId) : pathRepo auth request = pathRepo auth other := by
  rw [pathRepo, pathRepo, names, tenant]

/-- **When a token that may clone the repository can fetch its objects**, which are stored. It needs
the permission to push, and what the middleware reads in the paths of the fetch has to be open to
it, to push for the batch. Where it reads there what it reads in the path of the clone, that
repository has to be open to the user to push; and where the clone is spelled plainly, that is the
repository itself. -/
theorem lfs_fetch_iff {transfer batch : Request} {download : ObjectSpec → Request}
    {server : LfsServer} {objects : LfsObjects} {wanted : List ObjectSpec} {baseUrl : String}
    (finds : Finds auth repoStore collaboratorStore repo)
    (clones : Sends clock auth token repo .uploadPack transfer)
    (cloned : ∃ user, authMiddleware clock (some auth) transfer = .ok user)
    (batches : Sends clock auth token repo .lfsBatch batch)
    (downloads : ∀ obj ∈ wanted, Sends clock auth token repo .lfsDownload (download obj) ∧
      obj.oid.toList <:+ (download obj).path)
    (stored : ∀ obj ∈ wanted, validateOid obj.oid = true ∧
      (objects repo.tenantId obj.oid).isSome = true) :
    (Fetches clock auth server repo.tenantId baseUrl objects wanted batch download ↔
        .push ∈ token.permissions ∧ ReadsOpen auth collaboratorStore batch (some token) ∧
          ∀ obj ∈ wanted, ReadsOpen auth collaboratorStore (download obj) (some token)) ∧
      ((∀ request ∈ batch :: wanted.map download,
          extractRepoFromPath request.path = extractRepoFromPath transfer.path) →
        (Fetches clock auth server repo.tenantId baseUrl objects wanted batch download ↔
          .push ∈ token.permissions ∧ ∀ read, pathRepo auth transfer = some read →
            checkRepoAccessWithOrgLookup read token.userId .push collaboratorStore auth.orgStore
              auth.orgMemberStore repo.tenantId = .allowed)) ∧
      (plainSpelling transfer.method transfer.path = true →
        pathRepo auth transfer = some repo) := by
  have notRead := isRead_of_post clones rfl
  have required : transfer.required = needed false ∧ transfer.isRead = false :=
    required_transfer clones
  obtain ⟨reached, isReached, -⟩ := clones.reaches
  obtain ⟨other, isOther, -⟩ :=
    (authMiddleware_eq_ok_iff (not_health_of_handled isReached)).mp cloned
  obtain ⟨-, -, answer, isAnswer⟩ | ⟨fine, -⟩ := authenticate_of_verified clones.carries
  · cases isAnswer.symm.trans isOther
  rw [notRead, Bool.and_false, and_iff_right rfl, Refused, not_or, not_or,
    Bool.not_eq_false, not_not, required.1] at fine
  obtain ⟨valid, tenant, pulls⟩ := fine
  have sameTenant : token.tenantId = repo.tenantId := by
    by_contra differs
    exact tenant ⟨repo.tenantId, clones.tenant, .symm differs⟩
  have exact : Fetches clock auth server repo.tenantId baseUrl objects wanted batch download ↔
      .push ∈ token.permissions ∧ ReadsOpen auth collaboratorStore batch (some token) ∧
        ∀ obj ∈ wanted, ReadsOpen auth collaboratorStore (download obj) (some token) := by
    rw [Fetches, authMiddleware_sends batches finds.collaborators valid sameTenant,
      required_batch batches, isRead_of_post batches rfl, Bool.and_false, and_assoc]
    refine and_congr (by simp) (and_congr_right fun _ => ?_)
    rw [and_iff_left (serves_of_stored stored server baseUrl)]
    refine forall₂_congr fun obj mem => ?_
    obtain ⟨sends, ends⟩ := downloads obj mem
    rw [authMiddleware_sends sends finds.collaborators valid sameTenant,
      required_download sends (stored obj mem).1 ends]
    exact and_iff_right (.inr pulls)
  refine ⟨exact, fun sameNames => exact.trans (and_congr_right fun _ => ?_), fun plain =>
    pathRepo_sends clones rfl finds plain⟩
  have opened := ((authMiddleware_sends clones finds.collaborators valid sameTenant).mp cloned).2
  -- a download asks for what the clone has been granted
  have downloadsOpen : ∀ obj ∈ wanted, ReadsOpen auth collaboratorStore (download obj)
      (some token) := by
    intro obj mem read isRead
    obtain ⟨sends, ends⟩ := downloads obj mem
    have tenants : (download obj).tenantId = transfer.tenantId :=
      sends.tenant.trans clones.tenant.symm
    rw [pathRepo_congr (sameNames _ (mem_cons_of_mem _ (mem_map_of_mem mem))) tenants] at isRead
    rw [required_download sends (stored obj mem).1 ends, tenants]
    have isOpen := opened read isRead
    rw [required.1] at isOpen
    exact isOpen
  have tenants : batch.tenantId = transfer.tenantId := batches.tenant.trans clones.tenant.symm
  rw [and_iff_left downloadsOpen, ReadsOpen, pathRepo_congr (sameNames _ mem_cons_self) tenants,
    required_batch batches, batches.tenant]
  simp [Accounted]

end Fetching

/-- The SHA-256 of the bytes 1, 2, 3. -/
def sampleOid : String := "039058c6f2c0cb492c533b0a4d14ef77cc0f78abccced5287d84a1a2011cfb81"

/-- A server whose only object is these bytes. -/
def sampleServer : LfsServer where
  sha256 body := if body = [1, 2, 3] then sampleOid else ""

def sampleObjects : LfsObjects := fun _ oid => if oid = sampleOid then some [1, 2, 3] else none

def objectPath (name : String) : String := "/team/vault.git/info/lfs/objects/" ++ name

/-- The owner fetches an object with a token that may also push. -/
theorem lfs_fetch_vault :
    Fetches plainClock (ownerAuth [.pull, .push]) sampleServer "acme" "" sampleObjects
      [⟨sampleOid, 3⟩] (packOf (objectPath "batch")) fun obj => fetchOf (objectPath obj.oid) := by
  have reaches : ∀ op : GitOp, ∀ request : Request, ∀ more, request.credential = some "secret" →
      request.tenantId = some "acme" →
      handled request.method request.path = some ⟨op, "team".toList :: "vault.git".toList :: more⟩ →
      Sends plainClock (ownerAuth [.pull, .push]) (tokenOf "alice" [.pull, .push]) privateRepo op
      request := by
    intro op request more isSecret isTenant isReached
    have isName : String.ofList (stripGitSuffix "vault.git".toList) = "vault" := by decide +kernel
    exact ⟨by rw [isSecret]; rfl, isTenant, _, isReached, rfl, by rfl, isName⟩
  have clones := reaches .uploadPack (packOf "/team/vault.git/git-upload-pack") [] rfl rfl
    (by decide +kernel)
  have downloads : ∀ obj ∈ [ObjectSpec.mk sampleOid 3],
      Sends plainClock (ownerAuth [.pull, .push]) (tokenOf "alice" [.pull, .push]) privateRepo
      .lfsDownload
        (fetchOf (objectPath obj.oid)) ∧
        obj.oid.toList <:+ (fetchOf (objectPath obj.oid)).path := by
    rw [forall_mem_singleton]
    exact ⟨reaches .lfsDownload (fetchOf (objectPath sampleOid)) [sampleOid.toList] rfl rfl
      (by decide +kernel), by decide +kernel⟩
  have stored : ∀ obj ∈ [ObjectSpec.mk sampleOid 3], validateOid obj.oid = true ∧
      (sampleObjects privateRepo.tenantId obj.oid).isSome = true := by
    rw [forall_mem_singleton]
    exact ⟨by decide +kernel, by decide +kernel⟩
  obtain ⟨-, together, plain⟩ :=
    lfs_fetch_iff ⟨rfl, rfl, by decide, by rfl⟩ clones ⟨some "alice", by rfl⟩
    (reaches .lfsBatch (packOf (objectPath "batch")) [] rfl rfl (by decide +kernel))
      downloads stored
  refine (together (by decide +kernel)).mpr ⟨by decide, fun read isRead => ?_⟩
  obtain rfl := Option.some.inj ((plain (by decide +kernel)).symm.trans isRead)
  decide +kernel

/-- **A token that may only pull clones the repository and is refused the batch.** -/
theorem pull_token_refused_batch :
    authMiddleware plainClock (some (ownerAuth [.pull])) (fetchOf "/team/vault.git/info/refs") =
        .ok (some "alice") ∧
      authMiddleware plainClock (some (ownerAuth [.pull]))
        (packOf "/team/vault.git/git-upload-pack") = .ok (some "alice") ∧
      authMiddleware plainClock (some (ownerAuth [.pull])) (packOf (objectPath "batch")) =
        .error (forbiddenResponse "insufficient permissions") := by
  refine ⟨by rfl, by rfl, by rfl⟩

/-! ### Through which repository -/

/-- The objects that a request asks about or brings. -/
def LfsRequest.oids : LfsRequest → List String
  | batch _ objects => objects.map (·.oid)
  | verify object => [object.oid]
  | download oid | upload oid _ _ => [oid]

def LfsRequest.stores (oid : String) : LfsRequest → Bool
  | upload oid' _ _ => oid' == oid
  | _ => false

section Repositories

variable {server : LfsServer} {tenantId baseUrl oid : String} {request : LfsRequest}
  {objects others : LfsObjects}

theorem lfsHandle_answer (same : ∀ oid ∈ request.oids, objects tenantId oid = others tenantId oid) :
    (lfsHandle server tenantId baseUrl objects request).1 =
      (lfsHandle server tenantId baseUrl others request).1 := by
  cases request with
  | batch operation wanted =>
    refine congrArg LfsAnswer.batch (map_congr_left fun obj mem => ?_)
    have isSame := same obj.oid (mem_map_of_mem mem)
    unfold batchObject buildDownloadResponse buildUploadResponse
    rw [isSame]
  | verify object =>
    simp only [lfsHandle, objectAnswer, same object.oid (mem_singleton_self _)]
  | download oid =>
    simp only [lfsHandle, objectAnswer, same oid (mem_singleton_self _)]
  | upload oid contentLength body =>
    simp only [lfsHandle, putObject, same oid (mem_singleton_self _)]
    split_ifs <;> rfl

theorem lfsHandle_frame (kept : request.stores oid = false) :
    (lfsHandle server tenantId baseUrl objects request).2 tenantId oid = objects tenantId oid := by
  cases request with
  | upload oid' contentLength body =>
    have differs : oid ≠ oid' := by
      rintro rfl
      simp [LfsRequest.stores] at kept
    simp only [lfsHandle, putObject]
    split_ifs <;> simp [differs]
  | _ => rfl

/-- What is stored under an oid afterwards depends on what was stored under it. -/
theorem lfsHandle_local (same : objects tenantId oid = others tenantId oid) :
    (lfsHandle server tenantId baseUrl objects request).2 tenantId oid =
      (lfsHandle server tenantId baseUrl others request).2 tenantId oid := by
  cases stores : request.stores oid with
  | false => rw [lfsHandle_frame stores, lfsHandle_frame stores, same]
  | true =>
    cases request with
    | upload oid' contentLength body =>
      obtain rfl : oid' = oid := beq_iff_eq.mp stores
      simp only [lfsHandle, putObject, same]
      split_ifs <;> simp [same]
    | _ => cases stores

def lfsStep (server : LfsServer) (tenantId : String) (base : String → String)
    (event : String × LfsRequest) (objects : LfsObjects) : LfsAnswer × LfsObjects :=
  lfsHandle server tenantId (base event.1) objects event.2

def heardThrough (server : LfsServer) (tenantId : String) (base : String → String) (repo : String) :
    List (String × LfsRequest) → LfsObjects → List LfsAnswer :=
  heard (lfsStep server tenantId base) fun event => event.1 == repo

/-- **An object that comes through `p` is not noticed through `q`**, if no request through `q` names
it: the answers are those of the history without these uploads. -/
theorem uploads_not_heard {base : String → String} {p q : String}
    {history : List (String × LfsRequest)}
    (other : p ≠ q) (unasked : ∀ event ∈ history, event.1 = q → oid ∉ event.2.oids) :
    heardThrough server tenantId base q history objects = heardThrough server tenantId base q
        (history.filter fun event => !(event.1 == p && event.2.stores oid)) objects := by
  have start : ∀ oid', oid' ≠ oid → objects tenantId oid' = objects tenantId oid' := fun _ _ => rfl
  refine heard_filter (R := fun s t => ∀ oid', oid' ≠ oid → s tenantId oid' = t tenantId oid')
    (fun event s t _ dropped related => ?_) (fun event s t fine _ related => ?_) unasked start
  · rw [Bool.and_eq_true, beq_iff_eq] at dropped
    obtain ⟨rfl, stores⟩ := dropped
    refine ⟨beq_false_of_ne other, fun oid' differs =>
      (lfsHandle_frame ?_).trans (related oid' differs)⟩
    cases isRequest : event.2 with
    | upload oid'' contentLength body => grind [LfsRequest.stores]
    | _ => rfl
  · refine ⟨fun oid' differs => lfsHandle_local (related oid' differs), fun isHeard => ?_⟩
    have unnamed := fine (beq_iff_eq.mp isHeard)
    exact lfsHandle_answer fun oid' named => related oid' fun same => unnamed (same ▸ named)

end Repositories

def vaultThenSite (oid : String) : List (String × LfsRequest) :=
  [("team/vault", .upload sampleOid 3 [1, 2, 3]), ("team/site", .download oid)]

theorem uploads_not_heard_other :
    heardThrough sampleServer "acme" id "team/site" (vaultThenSite "other") (fun _ _ => none) =
      heardThrough sampleServer "acme" id "team/site" [("team/site", .download "other")]
      fun _ _ => none :=
  have unasked : ∀ event ∈ vaultThenSite "other", event.1 = "team/site" →
      sampleOid ∉ event.2.oids := by
    decide +kernel
  uploads_not_heard (p := "team/vault") (by decide) unasked

/-- **A request for the object itself gets it.** -/
theorem upload_served_elsewhere :
    heardThrough sampleServer "acme" id "team/site" (vaultThenSite sampleOid) (fun _ _ => none) =
        [.object [1, 2, 3]] ∧
      heardThrough sampleServer "acme" id "team/site" [("team/site", .download sampleOid)]
        (fun _ _ => none) = [.error 404 "object not found"] := by
  decide +kernel

end Muli.Git
