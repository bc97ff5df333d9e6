/-
**Who may publish to a scope.**

A scope is the handle of an organization in which the user has a role that may write, or the user's
own handle while no organization has it.

* `publishableScopes_exact` — **the enumeration lists exactly the valid scopes that the point query
  allows, in order, and nobody publishes to the handle of an organization without a writing role.**
-/

import Mathlib.Data.List.Sort
import Mathlib.Data.String.Basic
import Muli.Data.Listing
import Muli.Registry.Luat.Validation
import Muli.Registry.Quota

namespace Muli.Luat

open Interaction List

/-! ### The stores -/

inductive OrgRole where
  | owner
  | admin
  | member
  | viewer
deriving DecidableEq, Repr

def canWrite : OrgRole → Bool
  | .owner | .admin | .member => true
  | .viewer => false

structure TenantUser where
  id : String
  tenantId : String
  handle : String
deriving DecidableEq, Repr

structure Organization where
  id : String
  tenantId : String
  handle : String
deriving DecidableEq, Repr

structure OrgMember where
  orgId : String
  userId : String
  role : OrgRole
deriving DecidableEq, Repr

def OrgMember.key (member : OrgMember) : String × String := (member.orgId, member.userId)

structure Directory where
  users : Table TenantUser.id
  orgs : Table Organization.id
  members : Table OrgMember.key
  /-- A tenant has at most one organization of a handle. -/
  handles : (orgs.rows.map fun org => (org.tenantId, org.handle)).Nodup

inductive IdentityCall where
  | getUser (id : String)
  | getOrgByHandle (tenantId handle : String)
  | listOrgs (tenantId : String)
  | getMember (orgId userId : String)

abbrev IdentityCall.Value : IdentityCall → Type
  | getUser _ => Option TenantUser
  | getOrgByHandle .. => Option Organization
  | listOrgs _ => List Organization
  | getMember .. => Option OrgMember

abbrev IdentityCalls : Interface := ⟨IdentityCall, fun call => Except MuliError call.Value⟩

namespace Directory

def getOrgByHandle (dir : Directory) (tenantId handle : String) : Option Organization :=
  dir.orgs.rows.find? fun org => org.tenantId = tenantId ∧ org.handle = handle

def listOrgs (dir : Directory) (tenantId : String) : List Organization :=
  dir.orgs.rows.filter fun org => org.tenantId = tenantId

/-- What a lookup answers, the organizations visited in some order. -/
def lookup (scan : Scan Organization) (dir : Directory) : (call : IdentityCall) → call.Value
  | .getUser id => dir.users.find id
  | .getOrgByHandle tenantId handle => dir.getOrgByHandle tenantId handle
  | .listOrgs tenantId => scan.order (dir.listOrgs tenantId)
  | .getMember orgId userId => dir.members.find (orgId, userId)

end Directory

def identityHandle : Handler IdentityCalls Directory (Option (Scan Organization))
  | some scan, call, dir => (.ok (dir.lookup scan call), dir)
  | none, _, dir => (.error (.storage "identity store failed"), dir)

/-! ### The code -/

abbrev IdentityProg (α : Type) := ExceptT Response (Prog IdentityCalls) α

def storeFailure : Response := errorJson 500 "identity lookup failed"

def ask (call : IdentityCall) : IdentityProg call.Value := do
  match ← ExceptT.lift (Prog.perform (I := IdentityCalls) call) with
  | .ok value => pure value
  | .error _ => throw storeFailure

structure RegistryToken where
  userId : Option String
deriving DecidableEq, Repr

def resolveUser (tenantId : String) (token : Option RegistryToken) : IdentityProg TenantUser := do
  match token with
  | none => throw (errorJson 401 "authentication required")
  | some token =>
    match token.userId with
    | none =>
      throw (errorJson 403 "token is not bound to a user; create a registry token with a user_id")
    | some userId =>
      match ← ask (.getUser userId) with
      | some user =>
        if user.tenantId = tenantId then pure user
        else throw (errorJson 403 "the token's user does not exist in this registry")
      | none => throw (errorJson 403 "the token's user does not exist in this registry")

/-- Whether the user may publish (and yank) packages in the scope. -/
def mayPublish (tenantId : String) (user : TenantUser) (scope : String) : IdentityProg Bool := do
  match ← ask (.getOrgByHandle tenantId scope) with
  | none => pure (user.handle = scope)
  | some org =>
    let member ← ask (.getMember org.id user.id)
    pure (member.any fun member => canWrite member.role)

/-- One turn of the loop of `publishable_scopes`. -/
def addScope (user : TenantUser) (scopes : List String) (org : Organization) :
    IdentityProg (List String) := do
  if !isValidPart org.handle || scopes.contains org.handle then
    pure scopes
  else
    let member ← ask (.getMember org.id user.id)
    if member.any fun member => canWrite member.role then pure (scopes ++ [org.handle])
    else pure scopes

def ownScope (user : TenantUser) (orgs : List Organization) : List String :=
  if isValidPart user.handle && !orgs.any (fun org => org.handle = user.handle) then [user.handle]
  else []

def publishableScopes (tenantId : String) (user : TenantUser) : IdentityProg (List String) := do
  let orgs ← ask (.listOrgs tenantId)
  let scopes ← orgs.foldlM (addScope user) (ownScope user orgs)
  pure (scopes.insertionSort (· ≤ ·))

def authorize (semver : Semver) (tenantId : String) (token : Option RegistryToken)
    (scope name version : String) : IdentityProg Unit := do
  match validateParts scope name with
  | .error error => throw (errorJson 400 error.toString)
  | .ok _ =>
    match semver.parseVersion version with
    | .error error => throw (errorJson 400 error.toString)
    | .ok _ =>
      let user ← resolveUser tenantId token
      if ← mayPublish tenantId user scope then pure ()
      else throw (errorJson 403 ("`" ++ user.handle ++ "` may not publish to scope @" ++ scope))

/-! ### What they decide -/

namespace Directory

def Writes (dir : Directory) (userId : String) (org : Organization) : Prop :=
  ∃ member ∈ dir.members.rows, member.orgId = org.id ∧ member.userId = userId ∧
    member.role ∈ [.owner, .admin, .member]

/-- **The user may publish to the scope**: as a writer of the organization that has the handle, or
under a handle that no organization has. -/
def Allows (dir : Directory) (tenantId : String) (user : TenantUser) (scope : String) : Prop :=
  (∃ org ∈ dir.listOrgs tenantId, org.handle = scope ∧ dir.Writes user.id org) ∨
    user.handle = scope ∧ ∀ org ∈ dir.listOrgs tenantId, org.handle ≠ scope

variable {dir : Directory} {tenantId scope : String} {user : TenantUser}

theorem mem_listOrgs : org ∈ dir.listOrgs tenantId ↔ org ∈ dir.orgs.rows ∧
    org.tenantId = tenantId := by
  unfold listOrgs
  rw [mem_filter, decide_eq_true_eq]

theorem getOrgByHandle_eq_some : dir.getOrgByHandle tenantId scope = some org ↔
      org ∈ dir.listOrgs tenantId ∧ org.handle = scope := by
  rw [mem_listOrgs]
  constructor
  · intro found
    have selected : org.tenantId = tenantId ∧ org.handle = scope := by simpa using find?_some found
    exact ⟨⟨mem_of_find?_eq_some found, selected.1⟩, selected.2⟩
  · rintro ⟨⟨mem, rfl⟩, rfl⟩
    cases found : dir.getOrgByHandle org.tenantId org.handle with
    | none => simpa using find?_eq_none.mp found org mem
    | some other =>
      have selected : other.tenantId = org.tenantId ∧ other.handle = org.handle := by
        simpa using find?_some found
      have same : other = org := inj_on_of_nodup_map dir.handles
        (mem_of_find?_eq_some found) mem (Prod.ext selected.1 selected.2)
      rw [same]

theorem getOrgByHandle_eq_none :
    dir.getOrgByHandle tenantId scope = none ↔ ∀ org ∈ dir.listOrgs tenantId,
    org.handle ≠ scope := by
  rw [Option.eq_none_iff_forall_ne_some]
  refine forall_congr' fun org => ?_
  rw [Ne, getOrgByHandle_eq_some, not_and]

theorem canWrite_iff (role : OrgRole) : canWrite role ↔ role ∈ [.owner, .admin, .member] := by
  cases role <;> decide

theorem any_canWrite (dir : Directory) (org : Organization) (userId : String) :
    ((dir.members.find (org.id, userId)).any fun mem => canWrite mem.role) ↔
    dir.Writes userId org := by
  rw [Option.any_eq_true]
  constructor
  · rintro ⟨mem, found, writes⟩
    obtain ⟨isMember, isKey⟩ := Table.find_eq_some.mp found
    obtain ⟨sameOrg, sameUser⟩ := Prod.mk.inj isKey
    exact ⟨mem, isMember, sameOrg, sameUser, (canWrite_iff _).mp writes⟩
  · rintro ⟨mem, isMember, sameOrg, sameUser, writes⟩
    exact ⟨mem, Table.find_eq_some.mpr ⟨isMember, Prod.ext sameOrg sameUser⟩,
      (canWrite_iff _).mpr writes⟩

end Directory

section Decisions

variable {E : Type} {H : Handler IdentityCalls Directory E} {mayFail : Prop}

/-- The stores answer from the directory; where they may fail, a lookup may end with an error. -/
def Answers (H : Handler IdentityCalls Directory E) (mayFail : Prop) : Prop :=
  ∀ decision call dir, (∃ scan, H decision call dir = (.ok (dir.lookup scan call), dir)) ∨
    mayFail ∧ ∃ error, H decision call dir = (.error error, dir)

theorem answers_identityHandle : Answers identityHandle True := by
  intro decision call dir
  cases decision with
  | none => exact .inr ⟨trivial, _, rfl⟩
  | some scan => exact .inl ⟨scan, rfl⟩

def working : Handler IdentityCalls Directory (Scan Organization) := fun scan =>
  identityHandle (some scan)

theorem answers_working : Answers working False := fun scan _ _ => .inl ⟨scan, rfl⟩

variable (answers : Answers H mayFail) {dir : Directory} {tenantId scope : String}
    {user : TenantUser}
include answers

theorem delivers_ask (call : IdentityCall) :
    Delivers H (ask call) (fun value dir' => dir' = dir ∧ ∃ scan, value = dir.lookup scan call)
      (fun _ => mayFail) dir := by
  intro decision
  obtain ⟨scan, answer⟩ | ⟨failed, error, answer⟩ := answers decision call dir
  · rw [answer]
    exact ⟨rfl, scan, rfl⟩
  · rw [answer]
    exact failed

/-- **The point query decides `Allows`.** -/
theorem delivers_mayPublish : Delivers H (mayPublish tenantId user scope)
      (fun allowed dir' => dir' = dir ∧ (allowed = true ↔ dir.Allows tenantId user scope))
      (fun _ => mayFail) dir := by
  refine (delivers_ask answers _).andThen fun found dir' asked => ?_
  obtain ⟨rfl, scan, isFound⟩ := asked
  cases inTenant : dir'.getOrgByHandle tenantId scope with
  | none =>
    obtain rfl : found = none := isFound.trans inTenant
    have noOrg := Directory.getOrgByHandle_eq_none.mp inTenant
    refine Delivers.pure ⟨rfl, ?_⟩
    rw [decide_eq_true_eq]
    constructor
    · exact fun own => .inr ⟨own, noOrg⟩
    · rintro (⟨org, mem, hasHandle, -⟩ | ⟨own, -⟩)
      · exact absurd hasHandle (noOrg org mem)
      · exact own
  | some org =>
    obtain rfl : found = some org := isFound.trans inTenant
    obtain ⟨isOrg, hasHandle⟩ := Directory.getOrgByHandle_eq_some.mp inTenant
    refine (delivers_ask answers _).andThen fun mem dir asked => ?_
    obtain ⟨rfl, scan, isMember⟩ := asked
    refine .pure ⟨rfl, ?_⟩
    rw [isMember]
    refine (Directory.any_canWrite _ _ _).trans ?_
    constructor
    · exact fun writes => .inl ⟨org, isOrg, hasHandle, writes⟩
    · rintro (⟨other, isOther, sameHandle, writes⟩ | ⟨-, noOrg⟩)
      · have again := Directory.getOrgByHandle_eq_some.mpr ⟨isOther, sameHandle⟩
        rwa [Option.some.inj (inTenant.symm.trans again)]
      · exact absurd hasHandle (noOrg org isOrg)

omit answers in
theorem mem_ownScope : scope ∈ ownScope user orgs ↔
      isValidPart scope ∧ user.handle = scope ∧ ∀ org ∈ orgs, org.handle ≠ scope := by
  unfold ownScope
  split_ifs with own
  · simp only [Bool.and_eq_true, Bool.not_eq_true', any_eq_false, decide_eq_true_eq] at own
    rw [mem_singleton]
    constructor
    · grind
    · exact fun isOwn => isOwn.2.1.symm
  · grind

/-- The scopes found in the organizations that have been looked at. -/
structure Found (dir : Directory) (user : TenantUser) (own : List String)
    (done : List Organization) (scopes : List String) : Prop where
  nodup : scopes.Nodup
  mem : ∀ scope, scope ∈ scopes ↔ scope ∈ own ∨
    ∃ org ∈ done, org.handle = scope ∧ isValidPart scope ∧ dir.Writes user.id org

/-- **One turn of the loop.** -/
theorem delivers_addScope (found : Found dir user own done scopes) :
    Delivers H (addScope user scopes org)
      (fun scopes' dir' => dir' = dir ∧ Found dir user own (done ++ [org]) scopes')
      (fun _ => mayFail) dir := by
  have extend : ∀ scopes' : List String, scopes'.Nodup →
      (∀ scope, scope ∈ scopes' ↔ scope ∈ scopes ∨
        org.handle = scope ∧ isValidPart scope ∧ dir.Writes user.id org) →
      Found dir user own (done ++ [org]) scopes' := by
    intro scopes' nodup mem
    refine ⟨nodup, fun scope => ?_⟩
    rw [mem, found.mem]
    simp only [mem_append, mem_singleton, or_and_right, exists_or, exists_eq_left, or_assoc]
  unfold addScope
  split_ifs with skipped
  · refine .pure ⟨rfl, extend scopes found.nodup fun scope => ?_⟩
    refine ⟨.inl, fun either => either.elim id ?_⟩
    rintro ⟨rfl, valid, -⟩
    simpa [valid] using skipped
  · simp only [Bool.or_eq_true, Bool.not_eq_true', not_or, Bool.not_eq_false, contains_iff_mem]
      at skipped
    refine (delivers_ask answers _).andThen fun member dir' asked => ?_
    obtain ⟨rfl, scan, isMember⟩ := asked
    have decides := dir'.any_canWrite org user.id
    rw [show member = dir'.members.find (org.id, user.id) from isMember]
    split_ifs with writes
    · refine .pure ⟨rfl, extend _ ?_ fun scope => ?_⟩
      · exact nodup_append.mpr ⟨found.nodup, nodup_singleton _, by
          simpa using fun a isA (same : a = org.handle) => skipped.2 (same ▸ isA)⟩
      · grind
    · refine .pure ⟨rfl, extend scopes found.nodup fun scope => ?_⟩
      exact ⟨.inl, fun either => either.elim id fun isOrg => absurd (decides.mpr isOrg.2.2) writes⟩

/-- **The enumeration finds the valid scopes that are allowed.** -/
theorem delivers_publishableScopes (dir : Directory) (tenantId : String) (user : TenantUser) :
    Delivers H (publishableScopes tenantId user)
    (fun scopes dir' => dir' = dir ∧ scopes.Pairwise (· < ·) ∧
        ∀ scope, scope ∈ scopes ↔ isValidPart scope ∧ dir.Allows tenantId user scope)
      (fun _ => mayFail) dir := by
  refine (delivers_ask answers _).andThen fun orgs dir' asked => ?_
  obtain ⟨rfl, scan, isOrgs⟩ := asked
  have visited : ∀ org, org ∈ orgs ↔ org ∈ dir'.listOrgs tenantId := fun org => by
    rw [isOrgs]
    exact (scan.perm _).mem_iff
  have start : Found dir' user (ownScope user orgs) [] (ownScope user orgs) := by
    refine ⟨?_, fun scope => by simp⟩
    unfold ownScope
    split_ifs
    exacts [nodup_singleton _, nodup_nil]
  refine (Delivers.foldlM (fun done scopes dir => dir = dir' ∧
    Found dir' user (ownScope user orgs) done scopes) ⟨rfl, start⟩ ?_).andThen ?_
  · rintro done org later - scopes dir ⟨rfl, found⟩
    exact delivers_addScope answers found
  · rintro scopes dir ⟨rfl, found⟩
    refine .pure ⟨rfl, ?_, fun scope => ?_⟩
    · have sorted : (scopes.insertionSort (· ≤ ·)).SortedLE := sortedLE_insertionSort
      have nodup : (scopes.insertionSort (· ≤ ·)).Nodup :=
        (perm_insertionSort _ scopes).nodup_iff.mpr found.nodup
      exact (sorted.sortedLT_of_nodup nodup).pairwise
    · rw [mem_insertionSort, found.mem, mem_ownScope]
      simp only [visited]
      constructor
      · rintro (⟨valid, own, noOrg⟩ | ⟨org, mem, hasHandle, valid, writes⟩)
        · exact ⟨valid, .inr ⟨own, noOrg⟩⟩
        · exact ⟨valid, .inl ⟨org, mem, hasHandle, writes⟩⟩
      · rintro ⟨valid, ⟨org, mem, hasHandle, writes⟩ | ⟨own, noOrg⟩⟩
        · exact .inr ⟨org, mem, hasHandle, valid, writes⟩
        · exact .inl ⟨valid, own, noOrg⟩

theorem delivers_resolveUser : Delivers H (resolveUser tenantId (some ⟨some userId⟩))
      (fun user dir' => dir' = dir ∧ user.id = userId) (fun _ => True) dir := by
  refine ((delivers_ask answers _).mono (fun _ _ => id) fun _ _ => trivial).andThen ?_
  rintro found dir' ⟨rfl, scan, isFound⟩
  cases found with
  | none => exact .throw trivial
  | some user =>
    show Delivers H (if user.tenantId = tenantId then pure user else throw _) _ _ _
    split_ifs
    · exact .pure ⟨rfl, Table.find_key isFound.symm⟩
    · exact .throw trivial

/-- **A request is authorized only for a user who is allowed.** -/
theorem delivers_authorize (dir : Directory) (semver : Semver)
    (tenantId userId scope name version : String) :
    Delivers H (authorize semver tenantId (some ⟨some userId⟩) scope name version)
      (fun _ _ => ∃ user, user.id = userId ∧ dir.Allows tenantId user scope)
      (fun _ => True) dir := by
  unfold authorize
  cases validateParts scope name with
  | error error => exact .throw trivial
  | ok valid =>
    cases semver.parseVersion version with
    | error error => exact .throw trivial
    | ok parsed =>
      refine (delivers_resolveUser answers).andThen fun user dir' resolved => ?_
      obtain ⟨rfl, isUser⟩ := resolved
      refine ((delivers_mayPublish answers).mono (fun _ _ => id)
        fun _ _ => trivial).andThen fun allowed dir decided => ?_
      obtain ⟨rfl, allows⟩ := decided
      split_ifs with isAllowed
      · exact .pure ⟨user, isUser, allows.mp isAllowed⟩
      · exact .throw trivial

end Decisions

/-- **The enumeration lists exactly the valid scopes that the point query allows**, in order,
however the organizations are listed; **and no user publishes to the handle of an organization
without being an owner, an admin or a member of it**, whichever lookups fail. -/
theorem publishableScopes_exact (dir : Directory) (tenantId : String) (user : TenantUser) :
    (∀ scans : ℕ → Scan Organization, ∃ scopes,
      ((publishableScopes tenantId user).run.run working scans dir).1 = .ok scopes ∧
      scopes.Pairwise (· < ·) ∧ ∀ scope, scope ∈ scopes ↔ isValidPart scope = true ∧
        ∀ scans', ((mayPublish tenantId user scope).run.run working scans' dir).1 = .ok true) ∧
    ∀ org ∈ dir.orgs.rows, org.tenantId = tenantId → ¬ dir.Writes user.id org →
      ∀ semver name version outcomes,
        ((authorize semver tenantId (some ⟨some user.id⟩) org.handle name version).run.run
          identityHandle outcomes dir).1 ≠ .ok () := by
  constructor
  · intro scans
    obtain ⟨scopes, returned, -, sorted, mem⟩ :=
      (delivers_publishableScopes answers_working dir tenantId user).run_eq_ok scans
    refine ⟨scopes, returned, sorted, fun scope => (mem scope).trans (and_congr_right fun _ => ?_)⟩
    have decides : ∀ scans', ∃ allowed,
        ((mayPublish tenantId user scope).run.run working scans' dir).1 = .ok allowed ∧
          (allowed = true ↔ dir.Allows tenantId user scope) := fun scans' => by
      obtain ⟨allowed, answered, -, iff⟩ := (delivers_mayPublish answers_working).run_eq_ok scans'
      exact ⟨allowed, answered, iff⟩
    constructor
    · intro allows scans'
      obtain ⟨allowed, answered, iff⟩ := decides scans'
      rw [answered, iff.mpr allows]
    · intro always
      obtain ⟨allowed, answered, iff⟩ := decides scans
      exact iff.mp (Except.ok.inj (answered.symm.trans (always scans)))
  · intro org isOrg inTenant reads semver name version outcomes authorized
    have settles := Prog.Ensures.run (delivers_authorize answers_identityHandle dir semver tenantId
      user.id org.handle name version) outcomes
    rw [authorized] at settles
    have listed : org ∈ dir.listOrgs tenantId := Directory.mem_listOrgs.mpr ⟨isOrg, inTenant⟩
    obtain ⟨user', isUser, ⟨other, isOther, sameHandle, writes⟩ | ⟨-, noOrg⟩⟩ := settles
    · have same : other = org := Option.some.inj
        ((Directory.getOrgByHandle_eq_some.mpr ⟨isOther, sameHandle⟩).symm.trans
          (Directory.getOrgByHandle_eq_some.mpr ⟨listed, rfl⟩))
      rw [isUser, same] at writes
      exact reads writes
    · exact noOrg org listed rfl

def ada : TenantUser := ⟨"u1", "t1", "ada"⟩

/-- A user who is a member of one organization and a viewer of another. -/
def twoOrgs : Directory where
  users := ⟨[ada], by decide⟩
  orgs := ⟨[⟨"o1", "t1", "acme"⟩, ⟨"o2", "t1", "docs"⟩], by decide⟩
  members := ⟨[⟨"o1", "u1", .member⟩, ⟨"o2", "u1", .viewer⟩], by decide⟩
  handles := by decide

theorem publishableScopes_exact_twoOrgs :
    (∀ scans, ∃ scopes,
      ((publishableScopes "t1" ada).run.run working scans twoOrgs).1 = .ok scopes ∧
      "acme" ∈ scopes ∧ "docs" ∉ scopes) ∧
    ∀ semver name version outcomes,
      ((authorize semver "t1" (some ⟨some "u1"⟩) "docs" name version).run.run
        identityHandle outcomes twoOrgs).1 ≠ .ok () := by
  obtain ⟨listed, refused⟩ := publishableScopes_exact twoOrgs "t1" ada
  constructor
  · intro scans
    obtain ⟨scopes, returned, -, mem⟩ := listed scans
    refine ⟨scopes, returned, (mem "acme").mpr ⟨by decide, fun _ => rfl⟩, fun isDocs => ?_⟩
    cases ((mem "docs").mp isDocs).2 scans
  · exact refused ⟨"o2", "t1", "docs"⟩ (by decide) rfl (by unfold Directory.Writes; decide)

end Muli.Luat
