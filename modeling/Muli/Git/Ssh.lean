/-
**SSH and smart HTTP: two ways into a repository.**

* `transports_agree_iff` — **exactly when a key and a token with the same permissions are allowed
  the same.**
-/

import Muli.Git.Authorization

namespace Muli.Git

open Text Option String

/-! ### A session -/

structure SshServer where
  findByFingerprint : String → Except MuliError (Option SshKey)
  findByFingerprintInTenant : (tenantId fingerprint : String) → Except MuliError (Option SshKey)
  repoStore : RepositoryStore
  collaboratorStore : CollaboratorStore
  orgStore : OrgStore
  orgMemberStore : OrgMemberStore
  defaultTenantId : Option String := none
  quotaExceeded : String → Bool := fun _ => false

structure SshSession where
  fingerprint : String
  userId : String
  keyTenantId : String

/-- A key is accepted if it is known and has a user. -/
def authPublickey (server : SshServer) (fingerprint : String) : Option SshSession :=
  (found (server.findByFingerprint fingerprint)).bind fun key =>
    key.userId.map fun userId => ⟨fingerprint, userId, key.tenantId⟩

def validatePathComponent (s : List Char) : Bool :=
  !s.isEmpty && decide ((ofList s).utf8ByteSize ≤ 255) && s != "..".toList && s != ".".toList &&
    !s.contains '/' && !s.contains '\\' && !s.contains '\x00' && !containsText ".." s &&
    s.head? != some '-' && s.getLast? != some '-' && !s.any isWhiteSpace

/-- The namespace and the name in the argument of a git command. -/
def parseRepoPath (path : List Char) : Option (List Char × List Char) :=
  match splitN 2 '/' (path.dropWhile (· == '/')) with
  | [ns, raw] =>
    let name := stripGitSuffix raw
    if ns.isEmpty || name.isEmpty || !validatePathComponent ns ||
      !validatePathComponent name then none
    else some (ns, name)
  | _ => none

def resolveTenant (server : SshServer) (ns name : String) : Option String :=
  if (found (server.repoStore ns ns name)).isSome then some ns
  else server.defaultTenantId.filter fun tenantId =>
    (found (server.repoStore tenantId ns name)).isSome

/-- A key of another tenant needs a membership in the organization of the namespace. -/
def crossesTenant (server : SshServer) (session : SshSession) (tenantId ns : String) : Bool :=
  tenantId == session.keyTenantId ||
    ((found (server.orgStore tenantId ns)).bind fun org =>
      found (server.orgMemberStore org.id session.userId)).isSome

def needed (push : Bool) : GitPermission := if push then .push else .pull

/-- The repository that `git-upload-pack` or `git-receive-pack` is run on. -/
def execRequest (server : SshServer) (session : SshSession) (push : Bool) (path : List Char) :
    Option Repository :=
  (parseRepoPath path).bind fun (ns, name) =>
    let ns := ofList ns
    let name := ofList name
    (resolveTenant server ns name).bind fun tenantId =>
      (found (server.findByFingerprintInTenant session.keyTenantId session.fingerprint)).bind
        fun key =>
        if !crossesTenant server session tenantId ns then none
        -- only a push asks for a permission of the key
        else if push && !key.hasPermission .push then none
        else
          (found (server.repoStore tenantId ns name)).filter fun repo =>
            checkRepoAccessWithOrgLookup repo (some session.userId)
              (needed push) server.collaboratorStore
              (some server.orgStore) (some server.orgMemberStore) tenantId == .allowed &&
              !(push && server.quotaExceeded tenantId)

/-! ### A request with a token -/

/-- The request carries the token and reaches the operation on the repository, however it is
spelled. -/
structure Sends (clock : Clock) (auth : GitAuth) (token : GitToken) (repo : Repository) (op : GitOp)
    (request : Request) : Prop where
  carries : request.credential.bind (verifiedToken clock auth) = some token
  tenant : request.tenantId = some repo.tenantId
  reaches : ∃ reached, handled request.method request.path = some reached ∧ reached.op = op ∧
    ofList reached.namespace = repo.namespace ∧
    ofList (stripGitSuffix reached.name) = repo.name

/-- The middleware has its stores, and they have the repository. -/
structure Finds (auth : GitAuth) (repoStore : RepositoryStore)
    (collaboratorStore : CollaboratorStore)
    (repo : Repository) : Prop where
  repos : auth.repoStore = some repoStore
  collaborators : auth.collaboratorStore = some collaboratorStore
  named : repo.tenantId ≠ ""
  has : repoStore repo.tenantId repo.namespace repo.name = .ok (some repo)

section Sending

variable {clock : Clock} {auth : GitAuth} {repoStore : RepositoryStore}
  {collaboratorStore : CollaboratorStore} {token : GitToken} {repo : Repository} {op : GitOp}
  {request : Request}

/-- **When a valid token of the tenant gets a request through.** -/
theorem authMiddleware_sends (sends : Sends clock auth token repo op request)
    (collaborators : auth.collaboratorStore = some collaboratorStore)
    (valid : token.isValid clock.now = true) (sameTenant : token.tenantId = repo.tenantId) :
    (∃ user, authMiddleware clock (some auth) request = .ok user) ↔
      ((auth.anonymousPull && request.isRead) = true ∨ request.required ∈ token.permissions) ∧
        ReadsOpen auth collaboratorStore request (some token) := by
  obtain ⟨reached, isReached, rfl, isNs, isName⟩ := sends.reaches
  have refused : Refused clock request token ↔ request.required ∉ token.permissions := by
    simp [Refused, valid, sends.tenant, sameTenant]
  rw [authMiddleware_eq_ok_iff (not_health_of_handled isReached)]
  rcases authenticate_of_verified sends.carries with ⟨closed, wrong, answer,
    isAnswer⟩ | ⟨fine, isToken⟩
  · simp_all
  · have held : (auth.anonymousPull && request.isRead) = true ∨
        request.required ∈ token.permissions := by
      by_contra neither
      rw [not_or, Bool.not_eq_true] at neither
      exact fine ⟨neither.1, refused.mpr neither.2⟩
    rw [isToken, and_iff_right held]
    simp only [Except.ok.injEq, exists_eq_left']
    exact authorizeRepo_eq_ok_iff_readsOpen collaborators (some token)

/-- **Where the path is spelled plainly, the middleware reads the repository that is reached.** -/
theorem pathRepo_sends (sends : Sends clock auth token repo op request)
    (ofRepo : op.namesRepo = true) (finds : Finds auth repoStore collaboratorStore repo)
    (plain : plainSpelling request.method request.path = true) :
    pathRepo auth request = some repo := by
  obtain ⟨reached, isReached, rfl, isNs, isName⟩ := sends.reaches
  obtain ⟨onPath, -⟩ := extractRepoFromPath_handled plain isReached ofRepo
  exact pathRepo_eq finds.repos sends.tenant finds.named onPath (by rw [isNs, isName, finds.has])

theorem readsOpen_sends (sends : Sends clock auth token repo op request)
    (ofRepo : op.namesRepo = true) (finds : Finds auth repoStore collaboratorStore repo)
    (plain : plainSpelling request.method request.path = true) :
    ReadsOpen auth collaboratorStore request (some token) ↔
      Accounted auth collaboratorStore repo.tenantId (some token) request.required repo := by
  unfold ReadsOpen
  rw [pathRepo_sends sends ofRepo finds plain, sends.tenant]
  exact ⟨fun isOpen => isOpen repo rfl, fun accounted read isRead => some.inj isRead ▸ accounted⟩

theorem isRead_of_post (sends : Sends clock auth token repo op request)
    (posts : op.method = .post) : request.isRead = false := by
  obtain ⟨reached, isReached, rfl, -⟩ := sends.reaches
  obtain ⟨⟨op, captured⟩, isRoute, rest⟩ := bind_eq_some_iff.mp isReached
  obtain ⟨text, -, -, serves⟩ := route_spec isRoute
  obtain ⟨decoded, -, rfl⟩ := map_eq_some_iff.mp rest
  rw [posts] at serves
  cases isMethod : request.method <;> rw [isMethod] at serves <;>
    first | (rw [Request.isRead, isMethod]; rfl) | cases serves

end Sending

/-! ### The two transports -/

/-- Both requests of a fetch or push over HTTP are let through, and the handler of a push finds the
quota not used up. -/
def HttpAllows (clock : Clock) (auth : GitAuth) (exceeded push : Bool)
    (discovery transfer : Request) : Prop :=
  (∃ user, authMiddleware clock (some auth) discovery = .ok user) ∧
    (∃ user, authMiddleware clock (some auth) transfer = .ok user) ∧ (push && exceeded) = false

def SshAllows (server : SshServer) (fingerprint : String) (push : Bool) (path : List Char)
    (repo : Repository) : Prop :=
  ∃ session, authPublickey server fingerprint = some session ∧
    execRequest server session push path = some repo

structure Paired (clock : Clock) (server : SshServer) (key : SshKey) (token : GitToken)
    (repo : Repository)
    (user : String) : Prop where
  isKey : server.findByFingerprint key.fingerprint = .ok (some key)
  inTenant : server.findByFingerprintInTenant key.tenantId key.fingerprint = .ok (some key)
  keyUser : key.userId = some user
  tokenUser : token.userId = some user
  permissions : token.permissions = key.permissions
  valid : token.isValid clock.now = true
  unrestricted : token.repoId = none
  keyTenant : key.tenantId = repo.tenantId
  tokenTenant : token.tenantId = repo.tenantId

section Transports

variable {server : SshServer} {clock : Clock} {auth : GitAuth} {key : SshKey} {token : GitToken}
  {repo : Repository} {user : String} {push : Bool} {path : List Char}
  {discovery transfer : Request}

/-- The repository is open to the user for the operation, and the quota leaves room for a push. -/
def OpenTo (server : SshServer) (repo : Repository) (user : String) (push : Bool) : Prop :=
  checkRepoAccessWithOrgLookup repo (some user) (needed push) server.collaboratorStore
      (some server.orgStore) (some server.orgMemberStore) repo.tenantId = .allowed ∧
    (push && server.quotaExceeded repo.tenantId) = false

/-- What the middleware reads in the paths of both requests is open to the user of the token, and
the quota leaves room for a push. -/
def OpenOverHttp (server : SshServer) (auth : GitAuth) (token : GitToken) (repo : Repository)
    (push : Bool) (discovery transfer : Request) : Prop :=
  ReadsOpen auth server.collaboratorStore discovery (some token) ∧
    ReadsOpen auth server.collaboratorStore transfer (some token) ∧
    (push && server.quotaExceeded repo.tenantId) = false

/-- The argument of the command names the repository, and SSH looks for it at its tenant. -/
def SshFinds (server : SshServer) (path : List Char) (repo : Repository) : Prop :=
  parseRepoPath path = some (repo.namespace.toList, repo.name.toList) ∧
    resolveTenant server repo.namespace repo.name = some repo.tenantId

/-- What is found is what was looked for. -/
def Coherent (repoStore : RepositoryStore) : Prop :=
  ∀ tenantId ns name repo, repoStore tenantId ns name = .ok (some repo) →
    repo.tenantId = tenantId ∧ repo.namespace = ns ∧ repo.name = name

theorem sshAllows_iff (paired : Paired clock server key token repo user)
    (coherent : Coherent server.repoStore)
    (has : server.repoStore repo.tenantId repo.namespace repo.name = .ok (some repo)) :
    SshAllows server key.fingerprint push path repo ↔
      SshFinds server path repo ∧ (push = true → .push ∈ key.permissions) ∧
        OpenTo server repo user push := by
  have isSession : authPublickey server key.fingerprint =
      some ⟨key.fingerprint, user, key.tenantId⟩ := by
    rw [authPublickey, paired.isKey, found_ok, bind_some, paired.keyUser, map_some]
  unfold SshAllows SshFinds
  simp only [isSession, some.injEq, exists_eq_left', execRequest]
  cases parsed : parseRepoPath path with
  | none => simp
  | some names =>
    obtain ⟨ns, name⟩ := names
    simp only [bind_some, paired.inTenant, found_ok, some.injEq, Prod.mk.injEq]
    by_cases named : ns = repo.namespace.toList ∧ name = repo.name.toList
    · obtain ⟨rfl, rfl⟩ := named
      simp only [ofList_toList, and_self, true_and]
      cases resolves : resolveTenant server repo.namespace repo.name with
      | none => simp
      | some tenantId =>
        simp only [bind_some, some.injEq]
        by_cases same : tenantId = repo.tenantId
        · subst same
          have lacks : (push && !key.hasPermission .push) = false ↔
              (push = true → .push ∈ key.permissions) := by
            cases push <;> simp [SshKey.hasPermission]
          have own : crossesTenant server ⟨key.fingerprint, user, key.tenantId⟩ repo.tenantId
              repo.namespace = true := by simp [crossesTenant, paired.keyTenant]
          rw [own, Bool.not_true, if_neg Bool.false_ne_true, ← lacks, OpenTo, has, found_ok]
          cases push && !key.hasPermission .push with
          | true => simp
          | false => grind
        · refine iff_of_false (fun isRepo => ?_) fun both => same both.1
          split_ifs at isRepo
          exact same (coherent _ _ _ _ (found_eq_some.mp (filter_eq_some_iff.mp isRepo).1)).1.symm
    · refine iff_of_false (fun isRepo => named ?_) fun both => named both.1.1
      obtain ⟨tenantId, -, isRepo⟩ := bind_eq_some_iff.mp isRepo
      split_ifs at isRepo
      obtain ⟨-, isNs, isName⟩ :=
        coherent _ _ _ _ (found_eq_some.mp (filter_eq_some_iff.mp isRepo).1)
      rw [isNs, isName, toList_ofList, toList_ofList]
      exact ⟨rfl, rfl⟩

theorem required_discovery (discovers : Sends clock auth token repo .infoRefs discovery)
    (asks : containsText "git-receive-pack" (discovery.query.getD []) = push) :
    discovery.required = needed push := by
  obtain ⟨reached, isReached, isOp, -⟩ := discovers.reaches
  have required : discovery.required = reached.op.needs (discovery.query.getD []) :=
    requiredPermission_of_service isReached (.inl isOp) fun _ => rfl
  rw [required, isOp, ← asks]
  rfl

section

variable (transfers : Sends clock auth token repo (if push then .receivePack
    else .uploadPack) transfer)
include transfers

/-- The request that transfers the pack is a `POST` and needs the permission of the operation. -/
theorem required_transfer :
    transfer.required = needed push ∧ transfer.isRead = false := by
  obtain ⟨reached, isReached, isOp, -⟩ := transfers.reaches
  have required : transfer.required = reached.op.needs [] :=
    requiredPermission_of_service isReached (by rw [isOp]; cases push <;> simp)
      (by rw [isOp]; cases push <;> rintro ⟨⟩)
  refine ⟨?_, isRead_of_post transfers (by cases push <;> rfl)⟩
  rw [required, isOp]
  cases push <;> rfl

theorem httpAllows_iff (paired : Paired clock server key token repo user)
    (collaborators : auth.collaboratorStore = some server.collaboratorStore)
    (discovers : Sends clock auth token repo .infoRefs discovery)
    (asks : containsText "git-receive-pack" (discovery.query.getD []) = push) :
    HttpAllows clock auth (server.quotaExceeded repo.tenantId) push discovery transfer ↔
      needed push ∈ key.permissions ∧
      OpenOverHttp server auth token repo push discovery transfer := by
  obtain ⟨required, notRead⟩ := required_transfer transfers
  rw [HttpAllows, authMiddleware_sends discovers collaborators paired.valid paired.tokenTenant,
    authMiddleware_sends transfers collaborators paired.valid paired.tokenTenant,
    required_discovery discovers asks, required, notRead, paired.permissions, OpenOverHttp]
  simp only [Bool.and_false, Bool.false_eq_true, false_or]
  tauto

/-- **Where both paths are spelled plainly, the repository is as open over HTTP as over SSH.** -/
theorem openOverHttp_iff (paired : Paired clock server key token repo user)
    (finds : Finds auth server.repoStore server.collaboratorStore repo)
    (orgs : auth.orgStore = some server.orgStore)
    (members : auth.orgMemberStore = some server.orgMemberStore)
    (discovers : Sends clock auth token repo .infoRefs discovery)
    (asks : containsText "git-receive-pack" (discovery.query.getD []) = push)
    (plain : plainSpelling discovery.method discovery.path = true)
    (plain' : plainSpelling transfer.method transfer.path = true) :
    OpenOverHttp server auth token repo push discovery transfer ↔ OpenTo server repo user push := by
  have ofRepo : (if push then GitOp.receivePack else .uploadPack).namesRepo = true := by
    cases push <;> rfl
  rw [OpenOverHttp, readsOpen_sends discovers rfl finds plain,
    readsOpen_sends transfers ofRepo finds plain',
    required_discovery discovers asks, (required_transfer transfers).1, OpenTo]
  simp only [Accounted, some.injEq, exists_eq_left', paired.unrestricted, reduceCtorEq, false_and,
    false_or, bind_some, paired.tokenUser, orgs, members]
  tauto

end

end Transports

/-! ### A key that may only push -/

def sshServerOf (permissions : List GitPermission) : SshServer where
  findByFingerprint _ := .ok (some ⟨"acme", some "alice", "SHA256:1", permissions⟩)
  findByFingerprintInTenant _ _ := .ok (some ⟨"acme", some "alice", "SHA256:1", permissions⟩)
  repoStore := storeOf [privateRepo]
  collaboratorStore _ _ := .ok none
  orgStore _ _ := .ok none
  orgMemberStore _ _ := .ok none
  defaultTenantId := some "acme"

def ownerAuth (permissions : List GitPermission) : GitAuth :=
  { authOf [privateRepo] (tokenOf "alice" permissions) with
    orgStore := some fun _ _ => .ok none
    orgMemberStore := some fun _ _ => .ok none }

def packOf (path : String) : Request := { fetchOf path with method := .post, query := none }

theorem storeOf_coherent (repos : List Repository) : Coherent (storeOf repos) := by
  intro tenantId ns name repo isRepo
  have matched := List.find?_some (Except.ok.inj isRepo)
  exact of_decide_eq_true matched

end Muli.Git
