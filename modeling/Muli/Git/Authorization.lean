/-
**Which repository a request was authorized for.**

The middleware reads the repository from the path as it was sent; the handler works with the decoded
segments of its route. Where the two readings agree, whatever the handler touches has been checked.

* `let_through_checked_iff` — **exactly when a request that is let through has been checked on every
  repository that its handler touches, for the permission of its operation**: the middleware reads
  that repository in the path, as it does where the path is spelled plainly, or it is open to the
  token anyway.
* `restricted_confined_iff` — **exactly when a request with a token of one repository stays with
  it.**
-/

import Muli.Git.Middleware

namespace Muli.Git

open Text List Option

/-! ### What the handler gets -/

/-- An operation with what its route has captured, decoded. -/
structure Handled where
  op : GitOp
  params : List (List Char)
deriving DecidableEq, Repr

def Handled.namespace (reached : Handled) : List Char := reached.params.headD []

def Handled.name (reached : Handled) : List Char := reached.params.tail.headD []

/-- What a request reaches; a path whose escapes are no UTF-8 is answered before the handler. -/
def handled (method : Method) (path : List Char) : Option Handled :=
  (route method path).bind fun reached =>
    (reached.2.mapM percentDecode).map fun decoded => ⟨reached.1, decoded⟩

def servicePath (path : List Char) : Bool :=
  endsWith "/info/refs" path || endsWith "/git-receive-pack" path ||
    endsWith "/git-upload-pack" path

def GitOp.inApi (op : GitOp) : Bool := op.template.take 3 == [.lit "api", .lit "v1", .lit "repos"]

def plainSpelling (method : Method) (path : List Char) : Bool :=
  match route method path with
  | some (op, ns :: name :: _) =>
    percentDecode ns == some ns && percentDecode name == some name &&
      (if op.inApi then !endsWith ".git" name && !servicePath path else !endsWith ".git.git" name)
  | _ => true

/-! ### The two readings agree -/

section Agreement

variable {method : Method} {path : List Char} {op : GitOp} {captured : List (List Char)}

theorem route_spec (reached : route method path = some (op, captured)) :
    ∃ text, path = '/' :: text ∧ matchRoute op.template (text.splitOn '/') = some captured ∧
      method.servedBy op.method = true := by
  obtain ⟨segments, split, rest⟩ := bind_eq_some_iff.mp reached
  obtain ⟨first, -, rest⟩ := bind_eq_some_iff.mp rest
  obtain ⟨op', isOp, rest⟩ := bind_eq_some_iff.mp rest
  obtain ⟨captured', isMatch, same⟩ := map_eq_some_iff.mp rest
  obtain ⟨rfl, rfl⟩ := Prod.mk.inj same
  obtain ⟨text, rfl, rfl⟩ := eq_of_pathSegments split
  have serves := find?_some isOp
  rw [Bool.and_eq_true] at serves
  exact ⟨text, rfl, isMatch, serves.2⟩

theorem GitOp.template_cases (op : GitOp) :
      (∃ more, op.template = apiRoute more ∧ op.inApi = true) ∨
      (∃ third more, op.template = gitRoute (.lit third :: more) ∧ third ≠ "repos" ∧
      op.inApi = false) ∨ op.namesRepo = false := by
  cases op
  case infoRefs => exact .inr (.inl ⟨"info", [.lit "refs"], rfl, by decide, rfl⟩)
  case uploadPack => exact .inr (.inl ⟨"git-upload-pack", [], rfl, by decide, rfl⟩)
  case receivePack => exact .inr (.inl ⟨"git-receive-pack", [], rfl, by decide, rfl⟩)
  case lfsBatch => exact .inr (.inl ⟨"info", _, rfl, by decide, rfl⟩)
  case lfsVerify => exact .inr (.inl ⟨"info", _, rfl, by decide, rfl⟩)
  case lfsDownload => exact .inr (.inl ⟨"info", _, rfl, by decide, rfl⟩)
  case lfsUpload => exact .inr (.inl ⟨"info", _, rfl, by decide, rfl⟩)
  case createRepo | listRepos | createToken | revokeToken => exact .inr (.inr rfl)
  all_goals exact .inl ⟨_, rfl, rfl⟩

variable {reached : Handled} {more : List (List Char)}

theorem handled_eq (isReached : handled method path = some reached)
    (isRoute : route method path = some (op, ns :: name :: more))
    (nsPlain : percentDecode ns = some ns) (namePlain : percentDecode name = some name) :
    ∃ rest, reached = ⟨op, ns :: name :: rest⟩ := by
  rw [handled, isRoute, bind_some] at isReached
  obtain ⟨decoded, isDecoded, rfl⟩ := map_eq_some_iff.mp isReached
  rw [mapM_cons, mapM_cons, nsPlain, namePlain] at isDecoded
  cases isRest : more.mapM percentDecode with
  | none => simp_all
  | some rest => grind

theorem plainSpelling_spec (plain : plainSpelling method path = true)
    (isRoute : route method path = some (op, ns :: name :: more)) :
    percentDecode ns = some ns ∧ percentDecode name = some name ∧
      (op.inApi = true → ¬ ".git".toList <:+ name ∧ servicePath path = false) ∧
      (op.inApi = false → ¬ ".git.git".toList <:+ name) := by
  rw [plainSpelling, isRoute] at plain
  simp only [Bool.and_eq_true, beq_iff_eq] at plain
  refine ⟨plain.1.1, plain.1.2, fun inApi => ?_, fun notApi => ?_⟩
  · grind [endsWith]
  · rw [notApi, if_neg Bool.false_ne_true, Bool.not_eq_true', endsWith,
      decide_eq_false_iff_not] at plain
    exact plain.2

/-- **The middleware reads the names that the handler works with.** -/
theorem extractRepoFromPath_handled (plain : plainSpelling method path = true)
    (isReached : handled method path = some reached) (ofRepo : reached.op.namesRepo = true) :
    extractRepoFromPath path = some (reached.namespace, stripGitSuffix reached.name) ∧
      (reached.op.inApi = true → stripGitSuffix reached.name = reached.name ∧
        servicePath path = false) := by
  obtain ⟨⟨op, captured⟩, isRoute, rest⟩ := bind_eq_some_iff.mp isReached
  obtain ⟨text, rfl, isMatch, -⟩ := route_spec isRoute
  have sameOp : reached.op = op := by grind [map_eq_some_iff]
  rw [sameOp] at ofRepo
  rcases op.template_cases with ⟨more, isTemplate, inApi⟩ | ⟨third, more, isTemplate, notRepos,
    notApi⟩ | none
  · rw [isTemplate] at isMatch
    obtain ⟨ns, name, others, rest, split, rfl, -⟩ := matchRoute_apiRoute isMatch
    obtain ⟨nsPlain, namePlain, spelled, -⟩ := plainSpelling_spec plain isRoute
    obtain ⟨_, rfl⟩ := handled_eq isReached isRoute nsPlain namePlain
    have stripped := stripGitSuffix_of_not_suffix (spelled inApi).1
    refine ⟨?_, fun _ => ⟨stripped, (spelled inApi).2⟩⟩
    show extractRepoFromPath _ = some (ns, stripGitSuffix name)
    rw [extractRepoFromPath_api split, stripped]
  · rw [isTemplate] at isMatch
    obtain ⟨ns, name, others, rest, split, rfl, nonempty, isMatch⟩ := matchRoute_gitRoute isMatch
    obtain ⟨others, rfl, -⟩ := matchRoute_lit isMatch
    obtain ⟨nsPlain, namePlain, -, spelled⟩ := plainSpelling_spec plain isRoute
    obtain ⟨_, rfl⟩ := handled_eq isReached isRoute nsPlain namePlain
    have third' : third.toList ≠ "repos".toList := fun same => notRepos (String.toList_inj.mp same)
    refine ⟨?_, fun inApi => absurd (notApi.symm.trans inApi) Bool.false_ne_true⟩
    show extractRepoFromPath _ = some (ns, stripGitSuffix name)
    rw [extractRepoFromPath_git split nonempty third', trimGit_eq_stripGitSuffix (spelled notApi)]
  · exact absurd (none.symm.trans ofRepo) Bool.false_ne_true

/-! ### The permission -/

variable {query : Option (List Char)}

theorem requiredPermission_of_not_service (noService : servicePath path = false) :
    requiredPermission method path query = method.permission := by
  rw [servicePath, Bool.or_eq_false_iff, Bool.or_eq_false_iff] at noService
  obtain ⟨⟨noRefs, noReceive⟩, noUpload⟩ := noService
  rw [requiredPermission, noRefs, noReceive, noUpload]
  rfl

theorem permission_of_servedBy (serves : method.servedBy method' = true) :
    method.permission = method'.permission := by
  cases method <;> cases method' <;> first | rfl | cases serves

theorem matchRoute_fixed {fixed : List String}
    (isMatch : matchRoute (fixed.map .lit) segments = some rest) :
    segments = fixed.map String.toList := by
  induction fixed generalizing segments with
  | nil =>
    cases segments with
    | nil => rfl
    | cons segment segments => cases isMatch
  | cons text fixed ih => grind [matchRoute_lit]

theorem endsWith_of_match (fixed : List String)
    (isMatch : matchRoute (gitRoute (fixed.map .lit)) (text.splitOn '/') = some captured)
    (more : fixed.map String.toList ≠ [])
    (isFinal : final.toList = '/' :: ['/'].intercalate (fixed.map String.toList)) :
    endsWith final ('/' :: text) = true := by
  obtain ⟨ns, name, others, rest, split, -, -, later⟩ := matchRoute_gitRoute isMatch
  obtain rfl := matchRoute_fixed later
  have joined : ['/'].intercalate (text.splitOn '/') = text := intercalate_splitOn '/'
  rw [split, intercalate_cons_cons, intercalate_cons_of_ne_nil more] at joined
  rw [endsWith, decide_eq_true_eq, isFinal, ← joined]
  exact ⟨'/' :: (ns ++ '/' :: name), by simp⟩

theorem endsWith_eq_false (ends : endsWith final path = true)
    (neither : ¬ other.toList <:+ final.toList ∧ ¬ final.toList <:+ other.toList) :
    endsWith other path = false := by
  rw [endsWith, decide_eq_false_iff_not]
  rw [endsWith, decide_eq_true_eq] at ends
  intro alsoEnds
  rcases Nat.le_total other.toList.length final.toList.length with shorter | longer
  · exact neither.1 (suffix_of_suffix_length_le alsoEnds ends shorter)
  · exact neither.2 (suffix_of_suffix_length_le ends alsoEnds longer)

theorem namesRepo_of_looksUp (looksUp : op.looksUp = true) : op.namesRepo = true := by
  cases op <;> first | rfl | cases looksUp

theorem looksUp_cases (looksUp : op.looksUp = true) :
    op.inApi = true ∨ op = .infoRefs ∨ op = .uploadPack ∨ op = .receivePack := by
  cases op <;> first | exact .inl rfl | decide | cases looksUp

/-- **The middleware asks for the permission that a service of the protocol needs.** The service of
a discovery is read from the query as it was sent, and by the handler from the decoded one. -/
theorem requiredPermission_of_service (isReached : handled method path = some reached)
    (isService : reached.op = .infoRefs ∨ reached.op = .uploadPack ∨ reached.op = .receivePack)
    (sameService : reached.op = .infoRefs → containsText "git-receive-pack" service =
      containsText "git-receive-pack" (query.getD [])) :
    requiredPermission method path query = reached.op.needs service := by
  obtain ⟨⟨op, captured⟩, isRoute, rest⟩ := bind_eq_some_iff.mp isReached
  obtain ⟨text, rfl, isMatch, serves⟩ := route_spec isRoute
  have sameOp : reached.op = op := by grind [map_eq_some_iff]
  rw [sameOp] at isService sameService ⊢
  rcases isService with rfl | rfl | rfl
  · have refs : endsWith "/info/refs" ('/' :: text) = true :=
      endsWith_of_match ["info", "refs"] isMatch (by decide) (by decide)
    rw [requiredPermission, if_pos refs, ← sameService rfl]
    rfl
  · have upload : endsWith "/git-upload-pack" ('/' :: text) = true :=
      endsWith_of_match ["git-upload-pack"] isMatch (by decide) (by decide)
    rw [requiredPermission, endsWith_eq_false upload (by decide),
      endsWith_eq_false upload (by decide), upload]
    rfl
  · have receive : endsWith "/git-receive-pack" ('/' :: text) = true :=
      endsWith_of_match ["git-receive-pack"] isMatch (by decide) (by decide)
    rw [requiredPermission, endsWith_eq_false receive (by decide), receive]
    rfl

/-- Where the path is spelled plainly, that of every operation. -/
theorem requiredPermission_eq_needs (plain : plainSpelling method path = true)
    (isReached : handled method path = some reached) (looksUp : reached.op.looksUp = true)
    (sameService : reached.op = .infoRefs → containsText "git-receive-pack" service =
      containsText "git-receive-pack" (query.getD [])) :
    requiredPermission method path query = reached.op.needs service := by
  rcases looksUp_cases looksUp with inApi | isService
  · have notService :=
      (extractRepoFromPath_handled plain isReached (namesRepo_of_looksUp looksUp)).2 inApi
    obtain ⟨⟨op, captured⟩, isRoute, rest⟩ := bind_eq_some_iff.mp isReached
    obtain ⟨text, rfl, -, serves⟩ := route_spec isRoute
    have sameOp : reached.op = op := by grind [map_eq_some_iff]
    rw [sameOp] at inApi ⊢
    rw [requiredPermission_of_not_service notService.2, permission_of_servedBy serves]
    cases op <;> first | rfl | cases inApi
  · exact requiredPermission_of_service isReached isService sameService

end Agreement

/-! ### What has been checked -/

/-- The token is restricted to the repository and only pull is needed, or the access check allowed
the user of the token the permission on this repository. -/
def Accounted (auth : GitAuth) (collaboratorStore : CollaboratorStore) (tenantId : String)
    (token : Option GitToken) (needed : GitPermission) (repo : Repository) : Prop :=
  (∃ own, token = some own ∧ own.repoId = some repo.id ∧ needed = .pull) ∨
    checkRepoAccessWithOrgLookup repo (token.bind GitToken.userId) needed collaboratorStore
      auth.orgStore auth.orgMemberStore tenantId = .allowed

/-- The repository that the middleware reads in the path, if it finds one, is open to the token for
the permission that it asks for. -/
def ReadsOpen (auth : GitAuth) (collaboratorStore : CollaboratorStore) (request : Request)
    (token : Option GitToken) : Prop :=
  ∀ read, pathRepo auth request = some read →
    Accounted auth collaboratorStore (request.tenantId.getD "") token request.required read

section Checked

variable {clock : Clock} {auth : GitAuth} {repoStore : RepositoryStore}
  {collaboratorStore : CollaboratorStore} {request : Request} {tenantId : String}
  {reached : Handled} {lookup : String → String → Option Repository}

theorem pathRepo_eq (stores : auth.repoStore = some repoStore)
    (tenant : request.tenantId = some tenantId) (named : tenantId ≠ "")
    (onPath : extractRepoFromPath request.path = some (ns, name))
    (sees : repoStore tenantId (String.ofList ns) (String.ofList name) = .ok (some repo)) :
    pathRepo auth request = some repo := by
  rw [pathRepo, stores, onPath, tenant]
  dsimp only
  rw [if_neg named, sees, found_ok]

theorem eq_lookup_of_mem_ofPath (plain : plainSpelling request.method request.path = true)
    (isReached : handled request.method request.path = some reached)
    (touches : repo ∈ reached.op.ofPath lookup reached.namespace reached.name) :
    reached.op.looksUp = true ∧
      lookup (String.ofList reached.namespace) (String.ofList (stripGitSuffix reached.name)) = some
      repo := by
  unfold GitOp.ofPath at touches
  split_ifs at touches with ignores deletes opens
  · cases touches
  all_goals
    have looksUp : reached.op.looksUp = true := by simpa using ignores
    refine ⟨looksUp, ?_⟩
  · have inApi : reached.op.inApi = true := by rw [deletes]; rfl
    have stripped :=
      (extractRepoFromPath_handled plain isReached (namesRepo_of_looksUp looksUp)).2 inApi
    rw [stripped.1]
    simpa using touches
  · have inApi : reached.op.inApi = true := by
      generalize reached.op = op at opens
      cases op <;> first | rfl | cases opens
    have stripped :=
      (extractRepoFromPath_handled plain isReached (namesRepo_of_looksUp looksUp)).2 inApi
    rw [stripped.1] at touches ⊢
    simp only [mem_append, mem_toList, bind_eq_some_iff] at touches
    rcases touches with same | ⟨_, -, same⟩
    · exact same
    · exact same
  · simpa using touches

theorem authorizeRepo_eq_ok_iff_readsOpen
    (collaborators : auth.collaboratorStore = some collaboratorStore) (token : Option GitToken) :
    authorizeRepo auth request token = .ok () ↔ ReadsOpen auth collaboratorStore request token := by
  unfold ReadsOpen
  cases onPath : pathRepo auth request with
  | none =>
    refine iff_of_true ?_ (by rintro read ⟨⟩)
    rw [authorizeRepo, collaborators, onPath]
  | some repo =>
    rw [authorizeRepo_eq_ok_iff collaborators onPath, scopedPull_eq_true]
    refine Iff.trans (or_congr_left ?_) ⟨fun isOpen read isRead => Option.some.inj isRead ▸ isOpen,
      fun isOpen => isOpen repo rfl⟩
    exact exists_congr fun own => and_congr_right fun _ => and_comm

/-- What the configuration and the spelling of a request have to be like: the middleware has its
stores and sees the repositories that the handler sees, the path is spelled plainly, the service of
a discovery is the same in the query as in its decoding, the request is no listing, and where a
repository is made or moved to, none stands. -/
structure PlainlySent (auth : GitAuth) (repoStore : RepositoryStore)
    (lookup : String → String → Option Repository) (request : Request) (reached : Handled)
    (service : List Char) (destination : Option Destination) : Prop where
  stores : auth.repoStore = some repoStore
  tenant : ∃ tenantId, request.tenantId = some tenantId ∧ tenantId ≠ "" ∧
    ∀ ns name repo, lookup ns name = some repo → repoStore tenantId ns name = .ok (some repo)
  plain : plainSpelling request.method request.path = true
  sameService : reached.op = .infoRefs → containsText "git-receive-pack" service =
    containsText "git-receive-pack" (request.query.getD [])
  noListing : reached.op ≠ .listRepos
  free : reached.op.atDestination lookup reached.name destination = none

/-- **The middleware reads the repository that the handler touches.** -/
theorem PlainlySent.reads {service : List Char} {destination : Option Destination}
    {all : List Repository}
    (sent : PlainlySent auth repoStore lookup request reached service destination)
    (isReached : handled request.method request.path = some reached)
    (touches : repo ∈ reached.op.touched lookup all reached.namespace reached.name destination) :
    pathRepo auth request = some repo ∧ request.required = reached.op.needs service := by
  rw [GitOp.touched, if_neg sent.noListing, sent.free] at touches
  have ofPath : repo ∈ reached.op.ofPath lookup reached.namespace
      reached.name := by simpa using touches
  obtain ⟨looksUp, isRepo⟩ := eq_lookup_of_mem_ofPath sent.plain isReached ofPath
  obtain ⟨onPath, -⟩ :=
    extractRepoFromPath_handled sent.plain isReached (namesRepo_of_looksUp looksUp)
  obtain ⟨tenantId, isTenant, named, sees⟩ := sent.tenant
  exact ⟨pathRepo_eq sent.stores isTenant named onPath (sees _ _ repo isRepo),
    requiredPermission_eq_needs sent.plain isReached looksUp sent.sameService⟩

theorem not_health_of_handled (isReached : handled method path = some reached) :
    path ≠ "/-/health".toList := by
  rintro rfl
  have unrouted : handled method "/-/health".toList = none := by cases method <;> decide +kernel
  cases unrouted.symm.trans isReached

end Checked

/-! ### A run -/

section Runs

def storeOf (repos : List Repository) : RepositoryStore := fun tenantId ns name =>
  .ok (repos.find? fun repo => repo.tenantId = tenantId ∧ repo.namespace = ns ∧ repo.name = name)

/-- A middleware with some repositories and one token, no collaborators and no organizations. -/
def authOf (repos : List Repository) (token : GitToken) : GitAuth where
  getTokenByPrefix tokenPrefix := .ok (if tokenPrefix = token.tokenPrefix then some token else none)
  repoStore := some (storeOf repos)
  collaboratorStore := some fun _ _ => .ok none

def plainClock : Clock where
  verifyToken plaintext hash := plaintext == hash

def privateRepo : Repository where
  id := "repo-1"
  tenantId := "acme"
  «namespace» := "team"
  name := "vault"
  ownerId := "alice"

def tokenOf (userId : String) (permissions : List GitPermission) : GitToken where
  id := "token-1"
  tenantId := "acme"
  userId := some userId
  tokenHash := "secret"
  tokenPrefix := "secret"
  permissions := permissions

def fetchOf (path : String) : Request where
  method := .get
  path := path.toList
  query := some "service=git-upload-pack".toList
  credential := some "secret"
  tenantId := some "acme"

end Runs

/-! ### A token of one repository -/

def Concerns (lookup : String → String → Option Repository) (all : List Repository)
    (destination : Option Destination) (request : Request) (repoId : String) : Prop :=
  ∃ reached, handled request.method request.path = some reached ∧ reached.op.namesRepo = true ∧
    (∃ repo, lookup (String.ofList reached.namespace)
      (String.ofList (stripGitSuffix reached.name)) = some repo ∧ repo.id = repoId) ∧
    ∀ repo ∈ reached.op.touched lookup all reached.namespace reached.name destination,
    repo.id = repoId

/-- **When a request with a token of one repository stays with that repository.** A request that
does not concern it is refused exactly if the token is refused outright, or if the middleware finds
a repository on the path that is not open to the user by its own rules: the restriction is only read
to let a pull of its repository pass. -/
theorem restricted_confined_iff {clock : Clock} {auth : GitAuth}
    {collaboratorStore : CollaboratorStore} {request : Request} {token : GitToken} {repoId : String}
    {lookup : String → String → Option Repository} {all : List Repository}
    {destination : Option Destination}
    (collaborators : auth.collaboratorStore = some collaboratorStore)
    (notHealth : request.path ≠ "/-/health".toList)
    (carries : request.credential.bind (verifiedToken clock auth) = some token)
    (restricted : token.repoId = some repoId) :
    ((∃ user, authMiddleware clock (some auth) request = .ok user) →
        Concerns lookup all destination request repoId) ↔
        Concerns lookup all destination request repoId ∨
        ((auth.anonymousPull && request.isRead) = false ∧ Refused clock request token) ∨
        ∃ repo, pathRepo auth request = some repo ∧
        ¬ (request.required = .pull ∧ repoId = repo.id) ∧
          ¬ MayAccess repo token.userId request.required collaboratorStore
            (orgMembership repo token.userId auth.orgStore auth.orgMemberStore
              (request.tenantId.getD "")) := by
  rw [authMiddleware_eq_ok_iff notHealth]
  rcases authenticate_of_verified carries with ⟨closed, wrong, answer, isAnswer⟩ | ⟨fine, isToken⟩
  · simp [*]
  · have through : (∃ other, authenticate clock auth request = .ok other ∧
        authorizeRepo auth request other = .ok ()) ↔
        authorizeRepo auth request (some token) = .ok () := by
      rw [isToken]
      simp
    rw [through, or_iff_right_of_imp fun refused => absurd refused fine, imp_iff_or_not]
    refine or_congr_right ?_
    cases onPath : pathRepo auth request with
    | none =>
      have unchecked : authorizeRepo auth request (some token) = .ok () := by
        rw [authorizeRepo, collaborators, onPath]
      simp [unchecked]
    | some repo =>
      have scopedPull : scopedPull request (some token) repo = true ↔
          request.required = .pull ∧ repoId = repo.id := by
        rw [scopedPull_eq_true]
        simp [restricted]
      rw [authorizeRepo_eq_ok_iff collaborators onPath, scopedPull, repoVerdict,
        checkRepoAccessWithOrgLookup, checkRepoAccess_eq_allowed_iff, not_or]
      simp

def otherRepo (isPrivate : Bool) : Repository where
  id := "repo-2"
  tenantId := "acme"
  «namespace» := "team"
  name := "site"
  isPrivate := isPrivate
  ownerId := "bob"

def vaultToken : GitToken := { tokenOf "mallory" [.pull] with repoId := some "repo-1" }

theorem restricted_confined_private : vaultToken.repoId = some privateRepo.id ∧
      ((∃ user, authMiddleware plainClock (some (authOf [privateRepo, otherRepo true] vaultToken))
          (fetchOf "/team/site/info/refs") = .ok user) →
        Concerns (fun ns name => found (storeOf [privateRepo, otherRepo true] "acme" ns name))
          [] none (fetchOf "/team/site/info/refs") "repo-1") := by
  refine ⟨rfl, (restricted_confined_iff rfl (by decide +kernel) (by rfl) rfl).mpr (.inr (.inr ?_))⟩
  refine ⟨otherRepo true, by rfl, by decide +kernel, fun mayAccess => ?_⟩
  revert mayAccess
  rw [← checkRepoAccess_eq_allowed_iff]
  decide +kernel

/-- **It reaches a public one.** -/
theorem restricted_reads_public : vaultToken.repoId = some privateRepo.id ∧
      authMiddleware plainClock (some (authOf [privateRepo, otherRepo false] vaultToken))
        (fetchOf "/team/site/info/refs") = .ok (some "mallory") ∧
      ¬ Concerns (fun ns name => found (storeOf [privateRepo, otherRepo false] "acme" ns name))
        [] none (fetchOf "/team/site/info/refs") "repo-1" := by
  refine ⟨rfl, by rfl, ?_⟩
  rintro ⟨reached, isReached, -, ⟨repo, isRepo, same⟩, -⟩
  have site : handled .get "/team/site/info/refs".toList =
      some ⟨.infoRefs, ["team".toList, "site".toList]⟩ := by decide +kernel
  obtain rfl := some.inj (site.symm.trans isReached)
  have other : found (storeOf [privateRepo, otherRepo false] "acme" (.ofList "team".toList)
      (.ofList (stripGitSuffix "site".toList))) = some (otherRepo false) := by decide +kernel
  obtain rfl := some.inj (other.symm.trans isRepo)
  revert same
  decide

end Muli.Git
