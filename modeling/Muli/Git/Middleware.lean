/-
**The authorization of an HTTP request to the git server.**
-/

import Muli.Core.Validation
import Muli.Git.Routes

namespace Muli.Git

/-- What the middleware is configured with. -/
structure GitAuth where
  getTokenByPrefix : String → Except MuliError (Option GitToken)
  repoStore : Option RepositoryStore := none
  collaboratorStore : Option CollaboratorStore := none
  orgStore : Option OrgStore := none
  orgMemberStore : Option OrgMemberStore := none
  anonymousPull : Bool := false

/-- What the middleware reads of a request. -/
structure Request where
  method : Method
  path : List Char
  query : Option (List Char) := none
  /-- The token in the headers, in any of the supported schemes. -/
  credential : Option String := none
  /-- The tenant of the host name, which the middleware before has found. -/
  tenantId : Option String := none
deriving DecidableEq, Repr

def Request.isRead (request : Request) : Bool := request.method == .get || request.method == .head

def Request.required (request : Request) : GitPermission :=
  requiredPermission request.method request.path request.query

/-- Where the middleware runs: the verification of a token text against its hash, and the time. -/
structure Clock where
  verifyToken : String → String → Bool
  now : Timestamp := 0

/-- The first 16 characters of a token, by which it is looked up. -/
def tokenPrefix (plaintext : String) : String := String.ofList (plaintext.toList.take 16)

def unauthorizedResponse : Response := errorJson 401 "authentication required"

def forbiddenResponse (reason : String) : Response := errorJson 403 reason

/-- The token with the prefix, if its hash matches. -/
def verifiedToken (clock : Clock) (auth : GitAuth) (plaintext : String) : Option GitToken :=
  (found (auth.getTokenByPrefix (tokenPrefix plaintext))).filter fun token =>
    clock.verifyToken plaintext token.tokenHash

/-- **The token of the request**; where anonymous reads are allowed, none is needed to read. -/
def authenticate (clock : Clock) (auth : GitAuth) (request : Request) :
    Except Response (Option GitToken) :=
  if auth.anonymousPull && request.isRead then
    .ok (request.credential.bind (verifiedToken clock auth))
  else
    match request.credential.bind (verifiedToken clock auth) with
    -- no token, an unknown one, a wrong one, or a store that fails
    | none => .error unauthorizedResponse
    | some token =>
      if token.isValid clock.now = false then .error unauthorizedResponse
      else if request.tenantId.any (· ≠ token.tenantId) then
        .error (forbiddenResponse "token does not belong to this tenant")
      else if token.hasPermission request.required = false then
        .error (forbiddenResponse "insufficient permissions")
      else .ok (some token)

/-- The repository that the middleware finds in the path. -/
def pathRepo (auth : GitAuth) (request : Request) : Option Repository :=
  match auth.repoStore, extractRepoFromPath request.path, request.tenantId with
  | some repoStore, some (ns, name), some tenantId =>
    if tenantId = "" then none
    else found (repoStore tenantId (String.ofList ns) (String.ofList name))
  | _, _, _ => none

/-- The token is restricted to this repository and only reads it. -/
def scopedPull (request : Request) (token : Option GitToken) (repo : Repository) : Bool :=
  token.any fun token => request.required == .pull && token.repoId == some repo.id

def repoVerdict (auth : GitAuth) (collaboratorStore : CollaboratorStore) (request : Request)
    (token : Option GitToken) (repo : Repository) : RepoAccessVerdict :=
  checkRepoAccessWithOrgLookup repo (token.bind GitToken.userId) request.required collaboratorStore
    auth.orgStore auth.orgMemberStore (request.tenantId.getD "")

/-- A path without a repository is let through. -/
def authorizeRepo (auth : GitAuth) (request : Request) (token : Option GitToken) :
    Except Response Unit :=
  match auth.collaboratorStore, pathRepo auth request with
  | some collaboratorStore, some repo =>
    if scopedPull request token repo then .ok ()
    else
      match repoVerdict auth collaboratorStore request token repo with
      | .allowed => .ok ()
      | .denied reason => .error (forbiddenResponse reason)
  -- without the stores, without a repository or with a store that fails, nothing is checked
  | _, _ => .ok ()

/-- The authorization of a request. What it hands on is the user of the token. -/
def authMiddleware (clock : Clock) (auth : Option GitAuth) (request : Request) :
    Except Response (Option String) :=
  if request.path = "/-/health".toList then .ok none
  else
    match auth with
    | none => .ok none
    | some auth => do
      let token ← authenticate clock auth request
      authorizeRepo auth request token
      .ok ((token.bind GitToken.userId).filter (· ≠ ""))

/-! ### What a request that is let through has passed -/

section Through

variable {clock : Clock} {auth : GitAuth} {request : Request}

theorem authMiddleware_eq_ok_iff (notHealth : request.path ≠ "/-/health".toList) :
    (∃ user, authMiddleware clock (some auth) request = .ok user) ↔
      ∃ token, authenticate clock auth request = .ok token ∧
      authorizeRepo auth request token = .ok () := by
  rw [authMiddleware, if_neg notHealth]
  constructor
  · rintro ⟨user, through⟩
    obtain ⟨token, isToken, rest⟩ := exists_of_bind_eq_ok through
    obtain ⟨_, isChecked, -⟩ := exists_of_bind_eq_ok rest
    exact ⟨token, isToken, isChecked⟩
  · rintro ⟨token, isToken, isChecked⟩
    refine ⟨(token.bind GitToken.userId).filter (· ≠ ""), ?_⟩
    rw [isToken]
    dsimp only [bind, Except.bind]
    rw [isChecked]

/-- What is wrong with a token that its text belongs to. -/
def Refused (clock : Clock) (request : Request) (token : GitToken) : Prop :=
  token.isValid clock.now = false ∨
    (∃ tenantId, request.tenantId = some tenantId ∧ tenantId ≠ token.tenantId) ∨
    request.required ∉ token.permissions

/-- **A token that its text belongs to is refused for its validity, its tenant or its permissions,
unless the request is an anonymous read.** -/
theorem authenticate_of_verified
    (carries : request.credential.bind (verifiedToken clock auth) = some token) :
    ((auth.anonymousPull && request.isRead) = false ∧ Refused clock request token ∧
        ∃ answer, authenticate clock auth request = .error answer) ∨
      (¬ ((auth.anonymousPull && request.isRead) = false ∧ Refused clock request token) ∧
        authenticate clock auth request = .ok (some token)) := by
  have other : request.tenantId.any (· ≠ token.tenantId) = true ↔
      ∃ tenantId, request.tenantId = some tenantId ∧ tenantId ≠ token.tenantId := by
    rw [Option.any_eq_true]
    simp only [decide_eq_true_eq]
  have lacks : token.hasPermission request.required = false ↔
      request.required ∉ token.permissions := by
    rw [← hasPermission_iff, Bool.not_eq_true]
    rfl
  unfold authenticate
  rw [carries]
  by_cases anonymous : (auth.anonymousPull && request.isRead) = true
  · simp [*]
  · have closed : (auth.anonymousPull && request.isRead) = false := Bool.not_eq_true _ ▸ anonymous
    dsimp only
    split_ifs with invalid isOther isLacking
    · exact .inl ⟨closed, .inl invalid, _, rfl⟩
    · exact .inl ⟨closed, .inr (.inl (other.mp isOther)), _, rfl⟩
    · exact .inl ⟨closed, .inr (.inr (lacks.mp isLacking)), _, rfl⟩
    · refine .inr ⟨?_, rfl⟩
      rintro ⟨-, wrong | wrong | wrong⟩
      · exact invalid wrong
      · exact isOther (other.mpr wrong)
      · exact isLacking (lacks.mpr wrong)

variable {token : Option GitToken}

/-- **A request whose repository is found is let through for a scoped token that only pulls, or
because the check allows the user.** -/
theorem authorizeRepo_eq_ok_iff (stores : auth.collaboratorStore = some collaboratorStore)
    (onPath : pathRepo auth request = some repo) : authorizeRepo auth request token = .ok () ↔
      scopedPull request token repo = true ∨
        repoVerdict auth collaboratorStore request token repo = .allowed := by
  rw [authorizeRepo, stores, onPath]
  dsimp only
  split_ifs with isScoped
  · exact iff_of_true rfl (.inl isScoped)
  · rw [or_iff_right isScoped]
    cases repoVerdict auth collaboratorStore request token repo with
    | allowed => exact iff_of_true rfl rfl
    | denied reason => exact iff_of_false (by rintro ⟨⟩) (by rintro ⟨⟩)

theorem scopedPull_eq_true : scopedPull request token repo = true ↔
      ∃ own, token = some own ∧ request.required = .pull ∧ own.repoId = some repo.id := by
  rw [scopedPull, Option.any_eq_true]
  simp only [Bool.and_eq_true, beq_iff_eq]

end Through

end Muli.Git
