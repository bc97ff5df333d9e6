/-
**The routes of the git server, and what the middleware reads from a path.**

A request passes the authorization with the path as it stands in the request line; its handler gets
the segments of the matched route percent-decoded. The two readings are written separately.
-/

import Muli.Data.Percent
import Muli.Data.Text
import Muli.Git.Access

namespace Muli.Git

open Text List

inductive Method where
  | get
  | head
  | post
  | put
  | patch
  | delete
  | other
deriving DecidableEq, Repr

/-- `contains`: the pattern stands somewhere in the text. -/
def containsText (pattern : String) (text : List Char) : Bool := decide (pattern.toList <:+: text)

def endsWith (pattern : String) (text : List Char) : Bool := decide (pattern.toList <:+ text)

/-! ### The middleware's reading of a path -/

/-- The permission for a method where no rule for the path applies. -/
def Method.permission : Method → GitPermission
  | get | head => .pull
  | delete => .admin
  | _ => .push

/-- **The permission the middleware asks for**, from method, path and query. -/
def requiredPermission (method : Method) (path : List Char) (query : Option (List Char)) :
    GitPermission :=
  if endsWith "/info/refs" path then
    if containsText "git-receive-pack" (query.getD []) then .push else .pull
  else if endsWith "/git-receive-pack" path then .push
  else if endsWith "/git-upload-pack" path then .pull
  else method.permission

/-- `trim_end_matches(".git")` of the reversed name. -/
def dropGits : List Char → List Char
  | 't' :: 'i' :: 'g' :: '.' :: rest => dropGits rest
  | name => name

/-- `trim_end_matches(".git")`: the suffix is removed as often as it is there. -/
def trimGit (name : List Char) : List Char := (dropGits name.reverse).reverse

/-- The first two of the parts that `splitn(3, '/')` makes. -/
def firstTwo (text : List Char) : Option (List Char × List Char) :=
  match splitN 3 '/' text with
  | first :: second :: _ => some (first, second)
  | _ => none

/-- **The repository the middleware reads in a path.** -/
def extractRepoFromPath (path : List Char) : Option (List Char × List Char) :=
  let smart := (firstTwo (path.dropWhile (· == '/'))).map fun parts => (parts.1, trimGit parts.2)
  if "/api/v1/repos/".toList <+: path then
    match firstTwo (path.drop "/api/v1/repos/".length) with
    | some parts => some parts
    | none => smart
  else smart

/-! ### Operations and routes -/

/-- The operations of the git server. -/
inductive GitOp where
  | infoRefs | uploadPack | receivePack
  | createRepo | listRepos | deleteRepo | transferRepo | forkRepo
  | listRefs | createBranch
  | listCommits | getCommit | getCommitDiff
  | listTree | listTreeCommits | getBlame
  | getRootContents | createFilesBatch | getBlob | createOrUpdateFile
  | createWebhook | listWebhooks | deleteWebhook
  | createTag | deleteTag
  | createPr | listPrs | getPr | patchPr | getPrDiff | addComment | listComments
  | createToken | revokeToken
  | lfsBatch | lfsVerify | lfsDownload | lfsUpload
deriving DecidableEq, Repr

/-- A part of a route: a fixed segment, a captured one, or all that is left. -/
inductive Seg where
  | lit (text : String)
  | param
  | rest
deriving DecidableEq, Repr

/-- `/{namespace}/{repo}/…` -/
def gitRoute (more : List Seg) : List Seg := .param :: .param :: more

/-- `/api/v1/repos/{namespace}/{repo}/…` -/
def apiRoute (more : List Seg) : List Seg :=
  .lit "api" :: .lit "v1" :: .lit "repos" :: .param :: .param :: more

namespace GitOp

/-- The path of each operation. -/
def template : GitOp → List Seg
  | infoRefs => gitRoute [.lit "info", .lit "refs"]
  | uploadPack => gitRoute [.lit "git-upload-pack"]
  | receivePack => gitRoute [.lit "git-receive-pack"]
  | createRepo | listRepos => [.lit "api", .lit "v1", .lit "repos"]
  | deleteRepo => apiRoute []
  | transferRepo => apiRoute [.lit "transfer"]
  | forkRepo => apiRoute [.lit "forks"]
  | listRefs => apiRoute [.lit "refs"]
  | createBranch => apiRoute [.lit "branches"]
  | listCommits => apiRoute [.lit "commits"]
  | getCommit => apiRoute [.lit "commits", .param]
  | getCommitDiff => apiRoute [.lit "commits", .param, .lit "diff"]
  | listTree => apiRoute [.lit "tree"]
  | listTreeCommits => apiRoute [.lit "tree-commits"]
  | getBlame => apiRoute [.lit "blame", .rest]
  | getRootContents | createFilesBatch => apiRoute [.lit "contents"]
  | getBlob | createOrUpdateFile => apiRoute [.lit "contents", .rest]
  | createWebhook | listWebhooks => apiRoute [.lit "hooks"]
  | deleteWebhook => apiRoute [.lit "hooks", .param]
  | createTag => apiRoute [.lit "tags"]
  | deleteTag => apiRoute [.lit "tags", .param]
  | createPr | listPrs => apiRoute [.lit "pulls"]
  | getPr | patchPr => apiRoute [.lit "pulls", .param]
  | getPrDiff => apiRoute [.lit "pulls", .param, .lit "diff"]
  | addComment | listComments => apiRoute [.lit "pulls", .param, .lit "comments"]
  | createToken => [.lit "api", .lit "v1", .lit "tokens"]
  | revokeToken => [.lit "api", .lit "v1", .lit "tokens", .param]
  | lfsBatch => gitRoute [.lit "info", .lit "lfs", .lit "objects", .lit "batch"]
  | lfsVerify => gitRoute [.lit "info", .lit "lfs", .lit "objects", .lit "verify"]
  | lfsDownload | lfsUpload => gitRoute [.lit "info", .lit "lfs", .lit "objects", .param]

def method : GitOp → Method
  | infoRefs | listRepos | listRefs | listCommits | getCommit | getCommitDiff | listTree
  | listTreeCommits | getBlame | getRootContents | getBlob | listWebhooks | listPrs | getPr
  | getPrDiff
  | listComments | lfsDownload => .get
  | uploadPack | receivePack | createRepo | transferRepo | forkRepo | createBranch
  | createFilesBatch
  | createOrUpdateFile | createWebhook | createTag | createPr | addComment | createToken | lfsBatch
  | lfsVerify => .post
  | patchPr => .patch
  | lfsUpload => .put
  | deleteRepo | deleteWebhook | deleteTag | revokeToken => .delete

/-- The operations in the order of the router. The fixed segments `batch` and `verify` stand before
the captured one, as the router prefers them. -/
def all : List GitOp :=
  [infoRefs, uploadPack, receivePack, createRepo, listRepos, deleteRepo, transferRepo,
    forkRepo, listRefs,
    createBranch, listCommits, getCommit, getCommitDiff, listTree, listTreeCommits, getBlame,
    getRootContents, createFilesBatch, getBlob, createOrUpdateFile, createWebhook, listWebhooks,
    deleteWebhook, createTag, deleteTag, createPr, listPrs, getPr, patchPr, getPrDiff, addComment,
    listComments, createToken, revokeToken, lfsBatch, lfsVerify, lfsDownload, lfsUpload]

end GitOp

/-- A request with this method is served by a handler for `method`: `GET` handlers serve `HEAD` too.
-/
def Method.servedBy (request method : Method) : Bool :=
  request == method || (request == .head && method == .get)

/-- What a route captures from the segments of a path. A captured segment is not empty. -/
def matchRoute : List Seg → List (List Char) → Option (List (List Char))
  | [], [] => some []
  | .lit text :: route, segment :: segments =>
    if segment = text.toList then matchRoute route segments else none
  | .param :: route, segment :: segments =>
    if segment = [] then none else (matchRoute route segments).map (segment :: ·)
  | [.rest], segments =>
    let text := ['/'].intercalate segments
    if text = [] then none else some [text]
  | _, _ => none

/-- What stands between the slashes. -/
def pathSegments : List Char → Option (List (List Char))
  | '/' :: text => some (text.splitOn '/')
  | _ => none

/-- The operation that a request reaches, with what its route captured: the path decides first, then
the method among the handlers of that path. -/
def route (method : Method) (path : List Char) : Option (GitOp × List (List Char)) :=
  (pathSegments path).bind fun segments =>
    (GitOp.all.find? fun op => (matchRoute op.template segments).isSome).bind fun first =>
      (GitOp.all.find? fun op => op.template == first.template && method.servedBy op.method).bind
        fun op =>
        (matchRoute op.template segments).map fun captured => (op, captured)

/-! ### The handlers' reading -/

def stripGitSuffix (name : List Char) : List Char :=
  if ".git".toList <:+ name then name.take (name.length - 4) else name

/-- What a handler takes from the path. -/
structure Destination where
  «namespace» : String
  name : Option String
deriving DecidableEq, Repr

namespace GitOp

/-- The operations on one repository. -/
def namesRepo : GitOp → Bool
  | createRepo | listRepos | createToken | revokeToken => false
  | _ => true

/-- Handlers that look the repository of the path up. Those of LFS do not. -/
def looksUp : GitOp → Bool
  | lfsBatch | lfsVerify | lfsDownload | lfsUpload => false
  | op => op.namesRepo

/-- Handlers that open the directory of the name as it was captured, after they have looked the
record of the stripped name up. -/
def opensCaptured : GitOp → Bool
  | listRefs | createBranch | listCommits | getCommit | getCommitDiff | listTree | listTreeCommits
  | getBlame | getRootContents | createFilesBatch | getBlob | createOrUpdateFile | createTag
  | deleteTag =>
    true
  | _ => false

/-- The permission that an operation needs. `service` is what the query of a discovery asks for. -/
def needs (service : List Char) : GitOp → GitPermission
  | infoRefs => if containsText "git-receive-pack" service then .push else .pull
  | uploadPack => .pull
  | receivePack => .push
  | op => op.method.permission

/-- The repository that stands where the operation makes or moves one. -/
def atDestination (lookup : String → String → Option Repository) (name : List Char)
    (destination : Option Destination) : GitOp → Option Repository
  | createRepo => destination.bind fun target => target.name.bind fun name =>
    lookup target.namespace name
  | forkRepo => destination.bind fun target =>
    lookup target.namespace (target.name.getD (String.ofList (stripGitSuffix name)))
  | transferRepo => destination.bind fun target =>
    lookup target.namespace (String.ofList (stripGitSuffix name))
  | _ => none

/-- The repository that the path names, and for some operations the one whose directory is opened.
-/
def ofPath (lookup : String → String → Option Repository) (ns name : List Char) (op : GitOp) :
    List Repository :=
  let resolved := lookup (String.ofList ns) (String.ofList (stripGitSuffix name))
  let captured := lookup (String.ofList ns) (String.ofList name)
  if op.looksUp = false then []
  else if op = deleteRepo then captured.toList
  else if op.opensCaptured then resolved.toList ++ (resolved.bind fun _ => captured).toList
  else resolved.toList

/-- The repositories of the tenant that the handler reads or changes, `all` being those it has and
`ns` and `name` what the route captured, decoded. -/
def touched (lookup : String → String → Option Repository) (all : List Repository)
    (ns name : List Char) (destination : Option Destination) (op : GitOp) : List Repository :=
  (if op = listRepos then all else []) ++ op.ofPath lookup ns name ++
    (op.atDestination lookup name destination).toList

end GitOp

/-! ### What a matched route says about the path -/

section Matched

variable {path text : List Char} {segments captured : List (List Char)} {more : List Seg}

theorem eq_of_pathSegments (split : pathSegments path = some segments) :
    ∃ text, path = '/' :: text ∧ text.splitOn '/' = segments := by
  unfold pathSegments at split
  split at split
  next text => exact ⟨text, rfl, Option.some.inj split⟩
  next => cases split

theorem matchRoute_param (isMatch : matchRoute (.param :: more) segments = some captured) :
    ∃ segment others rest, segments = segment :: others ∧ captured = segment :: rest ∧
      segment ≠ [] ∧ matchRoute more others = some rest := by
  cases segments with
  | nil => cases isMatch
  | cons segment others => grind [matchRoute, Option.map_eq_some_iff]

theorem matchRoute_lit (isMatch : matchRoute (.lit fixed :: more) segments = some captured) :
    ∃ others, segments = fixed.toList :: others ∧ matchRoute more others = some captured := by
  cases segments with
  | nil => cases isMatch
  | cons segment others => grind [matchRoute]

theorem matchRoute_gitRoute (isMatch : matchRoute (gitRoute more) segments = some captured) :
    ∃ ns name others rest, segments = ns :: name :: others ∧
      captured = ns :: name :: rest ∧ ns ≠ [] ∧ matchRoute more others = some rest := by
  obtain ⟨ns, afterNs, rest, rfl, rfl, nonempty, onward⟩ := matchRoute_param isMatch
  obtain ⟨name, others, rest, rfl, rfl, -, later⟩ := matchRoute_param onward
  exact ⟨ns, name, others, rest, rfl, rfl, nonempty, later⟩

theorem matchRoute_apiRoute (isMatch : matchRoute (apiRoute more) segments = some captured) :
    ∃ ns name others rest, segments = "api".toList :: "v1".toList :: "repos".toList :: ns ::
      name :: others ∧ captured = ns :: name :: rest ∧ matchRoute more others = some rest := by
  obtain ⟨afterApi, rfl, fromV1⟩ := matchRoute_lit isMatch
  obtain ⟨afterV1, rfl, fromRepos⟩ := matchRoute_lit fromV1
  obtain ⟨afterRepos, rfl, fromNs⟩ := matchRoute_lit fromRepos
  obtain ⟨ns, afterNs, rest, rfl, rfl, -, fromName⟩ := matchRoute_param fromNs
  obtain ⟨name, others, rest, rfl, rfl, -, later⟩ := matchRoute_param fromName
  exact ⟨ns, name, others, rest, rfl, rfl, later⟩

variable {others : List (List Char)}

theorem firstTwo_of_splitOn (split : text.splitOn '/' = first :: second :: others) :
    firstTwo text = some (first, second) := by
  obtain ⟨rest, parts⟩ := splitN_three split
  rw [firstTwo, parts]

theorem dropWhile_slash (split : text.splitOn '/' = ns :: others) (nonempty : ns ≠ []) :
    ('/' :: text).dropWhile (· == '/') = text := by
  rw [dropWhile_cons_of_pos (by rfl)]
  cases text with
  | nil =>
    exact absurd (cons.inj split).1.symm nonempty
  | cons c rest =>
    rw [splitOn_cons_eq_if_modifyHead] at split
    split_ifs at split with slash
    · exact absurd (cons.inj split).1.symm nonempty
    · exact dropWhile_cons_of_neg slash

/-- **On the path of a protocol route the middleware reads the first two segments, the name without
its `.git` suffixes.** -/
theorem extractRepoFromPath_git (split : text.splitOn '/' = ns :: name :: third :: others)
    (nonempty : ns ≠ []) (notRepos : third ≠ "repos".toList) :
    extractRepoFromPath ('/' :: text) = some (ns, trimGit name) := by
  have notApi : ¬ "/api/v1/repos/".toList <+: '/' :: text := by
    rintro ⟨rest, same⟩
    have api : text = "api".toList ++ '/' ::
        ("v1".toList ++ '/' :: ("repos".toList ++ '/' :: rest)) :=
      (cons.inj same).2.symm
    rw [api, splitOn_append_cons_self_of_not_mem (by decide),
      splitOn_append_cons_self_of_not_mem (by decide),
      splitOn_append_cons_self_of_not_mem (by decide)] at split
    exact notRepos (cons.inj (cons.inj (cons.inj split).2).2).1.symm
  unfold extractRepoFromPath
  rw [if_neg notApi, dropWhile_slash split nonempty, firstTwo_of_splitOn split]
  rfl

/-- **On the path of a REST route it reads the two segments as they stand.** -/
theorem extractRepoFromPath_api
    (split : text.splitOn '/' = "api".toList :: "v1".toList :: "repos".toList :: ns ::
    name :: others) : extractRepoFromPath ('/' :: text) = some (ns, name) := by
  have parts : ∀ segment ∈ ns :: name :: others, '/' ∉ segment := by
    intro segment mem
    have isPart : segment ∈ text.splitOn '/' := by simp [*]
    exact not_mem_of_mem_splitOn isPart
  obtain ⟨rest, isRest⟩ : ∃ rest, rest = ['/'].intercalate (ns :: name :: others) := ⟨_, rfl⟩
  have whole : '/' :: text = "/api/v1/repos/".toList ++ rest := by
    have joined : ['/'].intercalate (text.splitOn '/') = text := intercalate_splitOn '/'
    rw [← joined, split, intercalate_cons_cons, intercalate_cons_cons,
      intercalate_cons_cons, isRest]
    rfl
  have isPrefix : "/api/v1/repos/".toList <+: '/' :: text := ⟨rest, whole.symm⟩
  have afterwards : ('/' :: text).drop "/api/v1/repos/".length = rest := by
    rw [whole]
    exact drop_left
  have segmentsOfRest : rest.splitOn '/' = ns :: name :: others := by
    rw [isRest]
    exact splitOn_intercalate '/' parts (cons_ne_nil _ _)
  unfold extractRepoFromPath
  rw [if_pos isPrefix, afterwards, firstTwo_of_splitOn segmentsOfRest]

end Matched

/-! ### Two ways to remove a suffix -/

variable {name : List Char}

theorem dropGits_of_not_starts (none : ¬ "tig.".toList <+: name) : dropGits name = name := by
  unfold dropGits
  split
  next rest => exact absurd ⟨rest, rfl⟩ none
  next => rfl

theorem trimGit_eq_stripGitSuffix (once : ¬ ".git.git".toList <:+ name) :
    trimGit name = stripGitSuffix name := by
  unfold trimGit stripGitSuffix
  split_ifs with suffix
  · obtain ⟨stem, rfl⟩ := suffix
    have stays : dropGits stem.reverse = stem.reverse := by
      refine dropGits_of_not_starts fun again => once ?_
      have isSuffix : ".git".toList <:+ stem := reverse_prefix.mp again
      obtain ⟨front, rfl⟩ := isSuffix
      exact ⟨front, by rw [append_assoc]; rfl⟩
    have step : dropGits (stem ++ ".git".toList).reverse = dropGits stem.reverse := by
      rw [reverse_append]
      rfl
    rw [step, stays, reverse_reverse]
    simp
  · rw [dropGits_of_not_starts fun isPrefix => suffix ( reverse_prefix.mp isPrefix),
      reverse_reverse]

theorem stripGitSuffix_of_not_suffix (plain : ¬ ".git".toList <:+ name) :
    stripGitSuffix name = name := if_neg plain

end Muli.Git
