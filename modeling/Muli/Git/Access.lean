/-
**Who may work with a repository.**

Both transports of the git server end in one check of the repository, the user and the permission
that the operation needs.

* `checkRepoAccess_eq_allowed_iff` — **a repository is open to a user exactly as one of the four
  rules says.**
-/

import Muli.Registry.Luat.Identity

namespace Muli.Git

open Luat (OrgRole Organization OrgMember)

/-! ### Records -/

inductive GitPermission where
  | pull
  | push
  | admin
deriving DecidableEq, Repr

inductive OwnerType where
  | user
  | organization
deriving DecidableEq, Repr

/-- A row of `repositories`, as far as it is read here. -/
structure Repository where
  id : String
  tenantId : String
  «namespace» : String
  name : String
  isPrivate : Bool := true
  ownerId : String := ""
  ownerType : OwnerType := .user
deriving DecidableEq, Repr

def hasPermission (permissions : List GitPermission) (required : GitPermission) : Bool :=
  permissions.contains required

variable {required : GitPermission}

@[simp] theorem hasPermission_iff : hasPermission permissions required = true ↔
    required ∈ permissions := by
  rw [hasPermission, List.contains_iff_mem]

/-- Not revoked, and not expired. -/
def isTokenValid (now : Timestamp) (revoked : Bool) (expiresAt : Option Timestamp) : Bool :=
  !revoked && expiresAt.all fun expiry => decide (now < expiry)

/-- A row of `git_tokens`. -/
structure GitToken where
  id : String
  tenantId : String
  userId : Option String := none
  repoId : Option String := none
  tokenHash : String
  /-- The beginning of the plaintext token, by which it is looked up. -/
  tokenPrefix : String
  permissions : List GitPermission
  expiresAt : Option Timestamp := none
  revoked : Bool := false
deriving DecidableEq, Repr

def GitToken.isValid (now : Timestamp) (token : GitToken) : Bool :=
  isTokenValid now token.revoked token.expiresAt

def GitToken.hasPermission (token : GitToken) (required : GitPermission) : Bool :=
  Git.hasPermission token.permissions required

/-- A key, by the columns that access depends on. -/
structure SshKey where
  tenantId : String
  userId : Option String := none
  fingerprint : String
  permissions : List GitPermission
deriving DecidableEq, Repr

def SshKey.hasPermission (key : SshKey) (required : GitPermission) : Bool :=
  Git.hasPermission key.permissions required

/-- What a user may do in a repository of others. -/
structure RepositoryCollaborator where
  repoId : String
  userId : String
  permissions : List GitPermission
deriving DecidableEq, Repr

def RepositoryCollaborator.hasPermission (collaborator : RepositoryCollaborator)
    (required : GitPermission) : Bool :=
  Git.hasPermission collaborator.permissions required

/-! ### Stores -/

/-- A store as one request sees it: each lookup answers or fails. -/
abbrev RepositoryStore := (tenantId ns name : String) → Except MuliError (Option Repository)

/-- `get_collaborator`; the lookup may fail. -/
abbrev CollaboratorStore := (repoId userId : String) →
  Except MuliError (Option RepositoryCollaborator)

abbrev OrgStore := (tenantId handle : String) → Except MuliError (Option Organization)

abbrev OrgMemberStore := (orgId userId : String) → Except MuliError (Option OrgMember)

/-- `ok().flatten()`: a store that fails has nothing. -/
def found {α : Type} (answer : Except MuliError (Option α)) : Option α := answer.toOption.join

@[simp] theorem found_ok {α : Type} (value : Option α) : found (.ok value) = value := by
  cases value <;> rfl

theorem found_eq_some {α : Type} {answer : Except MuliError (Option α)} {value : α} :
    found answer = some value ↔ answer = .ok (some value) := by
  cases answer with
  | error error => simp [found, Except.toOption]
  | ok answer => simp

/-! ### The check -/

/-- The answer, with a reason for a refusal. -/
inductive RepoAccessVerdict where
  | allowed
  | denied (reason : String)
deriving DecidableEq, Repr

/-- Members may pull and push, viewers only pull. -/
def orgRoleAllows (role : OrgRole) (required : GitPermission) : Bool :=
  match role with
  | .owner | .admin => true
  | .member => required == .pull || required == .push
  | .viewer => required == .pull

/-- **The four rules**: reads of a public repository, the owner, a role in its organization, and
collaborators. -/
def checkRepoAccess (repo : Repository) (userId : Option String) (required : GitPermission)
    (collaboratorStore : CollaboratorStore) (orgMembership : Option OrgMember) :
    RepoAccessVerdict :=
  let isWrite := required == .push || required == .admin
  if !repo.isPrivate && !isWrite then .allowed
  else
    match userId with
    | none => .denied "access denied"
    | some userId =>
      if userId = "" then .denied "access denied"
      else if repo.ownerId ≠ "" ∧ repo.ownerId = userId then .allowed
      else if repo.ownerType = .organization ∧
          orgMembership.any (fun member => orgRoleAllows member.role required) then .allowed
      else if (found (collaboratorStore repo.id userId)).any (·.hasPermission required) then
        .allowed
      else .denied "access denied"

/-- Looked up only for repositories of organizations. -/
def orgMembership (repo : Repository) (userId : Option String) (orgStore : Option OrgStore)
    (orgMemberStore : Option OrgMemberStore) (tenantId : String) : Option OrgMember :=
  match repo.ownerType, userId, orgStore, orgMemberStore with
  | .organization, some userId, some orgStore, some orgMemberStore =>
    if userId = "" then none
    else (found (orgStore tenantId repo.namespace)).bind fun org =>
      found (orgMemberStore org.id userId)
  | _, _, _, _ => none

def checkRepoAccessWithOrgLookup (repo : Repository) (userId : Option String)
    (required : GitPermission) (collaboratorStore : CollaboratorStore) (orgStore : Option OrgStore)
    (orgMemberStore : Option OrgMemberStore) (tenantId : String) : RepoAccessVerdict :=
  checkRepoAccess repo userId required collaboratorStore
    (orgMembership repo userId orgStore orgMemberStore tenantId)

/-! ### What the check decides -/

/-- Reading a public repository; being its owner; a role in its organization; being a collaborator.
-/
def MayAccess (repo : Repository) (userId : Option String) (required : GitPermission)
    (collaboratorStore : CollaboratorStore) (membership : Option OrgMember) : Prop :=
  (repo.isPrivate = false ∧ required = .pull) ∨
    ∃ user, userId = some user ∧ user ≠ "" ∧
      (repo.ownerId = user ∨
        (repo.ownerType = .organization ∧
          ∃ member, membership = some member ∧ orgRoleAllows member.role required = true) ∨
        ∃ collaborator, collaboratorStore repo.id user = .ok (some collaborator) ∧
          required ∈ collaborator.permissions)

theorem isWrite_eq_false :
    (required == .push || required == .admin) = false ↔ required = .pull := by
  cases required <;> decide

/-- **The check allows exactly what the rules say.** -/
theorem checkRepoAccess_eq_allowed_iff {repo : Repository} {userId : Option String} :
    checkRepoAccess repo userId required collaboratorStore membership = .allowed ↔
      MayAccess repo userId required collaboratorStore membership := by
  unfold checkRepoAccess MayAccess
  by_cases open_ : repo.isPrivate = false ∧ required = .pull
  · simp [open_.1, open_.2]
  · have closed : (!repo.isPrivate && !(required == .push || required == .admin)) = false := by
      rw [Bool.and_eq_false_iff]
      by_contra both
      rw [not_or, Bool.not_eq_false, Bool.not_eq_false, Bool.not_eq_true',
        Bool.not_eq_true'] at both
      exact open_ ⟨both.1, isWrite_eq_false.mp both.2⟩
    simp only [closed, Bool.false_eq_true, if_false, open_, false_or]
    cases userId with
    | none => simp
    | some user =>
      by_cases empty : user = ""
      · simp [empty]
      · simp only [empty, if_false, Option.some.injEq, exists_eq_left', ne_eq,
          not_false_iff, true_and]
        have owner : (¬ repo.ownerId = "" ∧ repo.ownerId = user) ↔ repo.ownerId = user :=
          ⟨And.right, fun same => ⟨same ▸ empty, same⟩⟩
        have mem : membership.any (fun mem => orgRoleAllows mem.role required) = true ↔
            ∃ mem, membership = some mem ∧ orgRoleAllows mem.role required = true := by
          rw [Option.any_eq_true]
        have collaborator : (found (collaboratorStore repo.id user)).any
            (·.hasPermission required) = true ↔
            ∃ collaborator, collaboratorStore repo.id user = .ok (some collaborator) ∧
              required ∈ collaborator.permissions := by
          simp only [Option.any_eq_true, found_eq_some, RepositoryCollaborator.hasPermission,
            hasPermission_iff]
        split_ifs with isOwner isMember isCollaborator
        · exact iff_of_true rfl (.inl isOwner.2)
        · exact iff_of_true rfl (.inr (.inl ⟨isMember.1, mem.mp isMember.2⟩))
        · exact iff_of_true rfl (.inr (.inr (collaborator.mp isCollaborator)))
        · refine iff_of_false (by rintro ⟨⟩) ?_
          rintro (yes | ⟨ofOrg, yes⟩ | yes)
          · exact isOwner (owner.mpr yes)
          · exact isMember ⟨ofOrg, mem.mpr yes⟩
          · exact isCollaborator (collaborator.mpr yes)

end Muli.Git
