/-
**The store of git tokens: a global index and the copies in the tenants' databases.**

Every token is written twice, to the index that all lookups read and to the database of its tenant.
Revoking a token, changing its expiry and deleting expired tokens touch the index alone; a start of
the server, and the opening of a database whose tenant has no token in the index, copy the
databases' rows back into it.

* `dead_never_returned` — **as long as none of them is taken, a token that was revoked or has
  expired is never returned again.**
-/

import Muli.Git.Access
import Muli.Interaction.Simulation
import Muli.Store.Jobs

namespace Muli.Git

open Interaction List Table

/-! ### The calls -/

structure TokenDb where
  index : Table GitToken.id
  copies : String → Table GitToken.id
  opened : String → Bool

/-- The calls of the token store, the opening of a tenant's database, the eviction of its
connection, and a start of the server that finds these databases. -/
inductive TokenCall where
  | createToken (token : GitToken)
  | getTokenByPrefix (tokenPrefix : String)
  | getTokenById (tokenId : String)
  | revokeToken (tokenId : String)
  | setTokenExpiry (tokenId : String) (expiresAt : Timestamp)
  | deleteExpiredTokens
  | tenantConn (tenantId : String)
  | evictTenantConn (tenantId : String)
  | restart (tenantIds : List String)

abbrev TokenCall.Value : TokenCall → Type
  | createToken _ => String
  | getTokenByPrefix _ | getTokenById _ => Option GitToken
  | _ => Unit

abbrev TokenCalls : Interface := ⟨TokenCall, fun call => Except MuliError call.Value⟩

/-- Where a call fails: at once, or between the two writes of a creation. -/
inductive TokenFault where
  | atOnce
  | betweenWrites
deriving DecidableEq, Repr

structure TokenMoment where
  now : Timestamp
  fault : Option TokenFault := none
deriving DecidableEq, Repr

def tokenStoreFailed : MuliError := .storage "token store failed"

/-- A row that the lookup by prefix may return. -/
def GitToken.lives (now : Timestamp) (token : GitToken) : Bool :=
  !token.revoked && token.expiresAt.all fun expiry => decide (dtToMs now < dtToMs expiry)

namespace TokenDb

def getTokenByPrefix (now : Timestamp) (tokenPrefix : String) (db : TokenDb) : Option GitToken :=
  db.index.rows.find? fun token => token.tokenPrefix = tokenPrefix ∧ token.lives now = true

/-- The index after a database has been read: rows whose id it has are left as they are. -/
def backfill (index : Table GitToken.id) (copies : Table GitToken.id) : Table GitToken.id :=
  index.insertAllOrIgnore copies.rows

/-- Open the database of a tenant: where the index has no token of the tenant, the copies are put
back. -/
def tenantConn (tenantId : String) (db : TokenDb) : TokenDb :=
  if db.opened tenantId then db
  else
    { db with
      index :=
        if db.index.rows.any (·.tenantId = tenantId) then db.index
        else backfill db.index (db.copies tenantId)
      opened := Function.update db.opened tenantId true }

/-- A token enters the index if its id is new, then the database of its tenant. -/
def createToken (fault : Option TokenFault) (token : GitToken) (db : TokenDb) :
    Except MuliError String × TokenDb :=
  if (db.index.find token.id).isSome then (.error (.storage "UNIQUE constraint failed"), db)
  else
    let indexed := { db with index := db.index.insertOrIgnore token }
    if fault.isSome then (.error tokenStoreFailed, indexed)
    else
      let db := indexed.tenantConn token.tenantId
      let copies := (db.copies token.tenantId).insertOrIgnore token
      (.ok token.id, { db with copies := Function.update db.copies token.tenantId copies })

/-- `UPDATE` of one row of the index. -/
def update (tokenId : String) (change : GitToken → GitToken) (db : TokenDb) :
    Except MuliError Unit × TokenDb :=
  match db.index.find tokenId with
  | none => (.error (.storage ("Token " ++ tokenId ++ " not found")), db)
  | some token => (.ok (), { db with index := db.index.put (change token) })

def revokeToken (tokenId : String) : TokenDb → Except MuliError Unit × TokenDb :=
  update tokenId fun token => { token with revoked := true }

def setTokenExpiry (tokenId : String) (expiresAt : Timestamp) :
    TokenDb → Except MuliError Unit × TokenDb :=
  update tokenId fun token => { token with expiresAt := some expiresAt }

def deleteExpiredTokens (now : Timestamp) (db : TokenDb) : TokenDb :=
  { db with index := db.index.keep fun token =>
      token.expiresAt.all fun expiry => !decide (dtToMs expiry < dtToMs now) }

/-- A start of the server: no connection is open, and every database that is found is put back. -/
def restart (db : TokenDb) (tenantIds : List String) : TokenDb :=
  { db with
    index := tenantIds.foldl (fun index tenantId => backfill index (db.copies tenantId)) db.index
    opened := fun _ => false }

end TokenDb

def tokenHandle : Handler TokenCalls TokenDb TokenMoment
  | ⟨_, some .atOnce⟩, _, db => (.error tokenStoreFailed, db)
  | ⟨_, fault⟩, .createToken token, db => db.createToken fault token
  | ⟨now, _⟩, .getTokenByPrefix tokenPrefix, db => (.ok (db.getTokenByPrefix now tokenPrefix), db)
  | _, .getTokenById tokenId, db => (.ok (db.index.find tokenId), db)
  | _, .revokeToken tokenId, db => db.revokeToken tokenId
  | _, .setTokenExpiry tokenId expiresAt, db => db.setTokenExpiry tokenId expiresAt
  | ⟨now, _⟩, .deleteExpiredTokens, db => (.ok (), db.deleteExpiredTokens now)
  | _, .tenantConn tenantId, db => (.ok (), db.tenantConn tenantId)
  | _, .evictTenantConn tenantId, db =>
      (.ok (), { db with opened := Function.update db.opened tenantId false })
  | _, .restart tenantIds, db => (.ok (), db.restart tenantIds)

/-! ### Dead tokens -/

/-- No row of the index makes the token valid. -/
def Dead (now : Timestamp) (id : String) (db : TokenDb) : Prop :=
  ∀ token ∈ db.index.rows, token.id = id → token.lives now = false

/-- A copy of the token that is still valid stands in the database, and the index has lost its row.
-/
def CopyOutlives (now : Timestamp) (id tenantId : String) (db : TokenDb) : Prop :=
  db.index.find id = none ∧ ∃ copy ∈ (db.copies tenantId).rows, copy.id = id ∧ copy.lives now = true

/-- The steps that make a token valid that was not: its id given to a new token, a new expiry for a
token that is not revoked, and a database read while the copy outlives the row. -/
def Revives (id : String) (db : TokenDb) (moment : TokenMoment) : TokenCall → Prop
  | .createToken token => token.id = id ∧ db.index.find id = none
  | .setTokenExpiry tokenId expiresAt =>
      tokenId = id ∧ (∃ token, db.index.find id = some token ∧ token.revoked = false) ∧
        dtToMs moment.now < dtToMs expiresAt
  | .tenantConn tenantId =>
      db.opened tenantId = false ∧ (∀ token ∈ db.index.rows, token.tenantId ≠ tenantId) ∧
        CopyOutlives moment.now id tenantId db
  | .restart tenantIds => ∃ tenantId ∈ tenantIds, CopyOutlives moment.now id tenantId db
  | _ => False

section Dead

variable {now later : Timestamp} {id : String} {db : TokenDb} {token : GitToken}

theorem GitToken.lives_eq_false_iff : token.lives now = false ↔
      token.revoked = true ∨ ∃ expiry, token.expiresAt = some expiry ∧
      dtToMs expiry ≤ dtToMs now := by
  rw [GitToken.lives, Bool.and_eq_false_iff, Bool.not_eq_false']
  cases token.expiresAt <;> simp

theorem dtToMs_mono (after : now ≤ later) : dtToMs now ≤ dtToMs later :=
  Int.ediv_le_ediv (by decide) after

theorem GitToken.lives_mono (dead : token.lives now = false) (after : now ≤ later) :
    token.lives later = false := by
  rw [GitToken.lives_eq_false_iff] at dead ⊢
  rcases dead with revoked | ⟨expiry, isExpiry, passed⟩
  · exact .inl revoked
  · exact .inr ⟨expiry, isExpiry, passed.trans (dtToMs_mono after)⟩

section

variable (dead : Dead now id db)
include dead

theorem Dead.mono (after : now ≤ later) : Dead later id db :=
  fun token mem same => GitToken.lives_mono (dead token mem same) after

theorem Dead.not_returned {tokenPrefix : String}
    (returned : db.getTokenByPrefix now tokenPrefix = some token) : token.id ≠ id := by
  intro same
  have isRow := mem_of_find?_eq_some returned
  have living := find?_some returned
  rw [decide_eq_true_eq] at living
  exact Bool.false_ne_true ((dead token isRow same).symm.trans living.2)

omit dead in
theorem Dead.of_find (found : db.index.find id = some token) (dead : token.lives now = false) :
    Dead now id db := by
  obtain ⟨mem, same⟩ := find_eq_some.mp found
  intro other isRow same'
  rw [eq_of_mem isRow mem (same'.trans same.symm)]
  exact dead

omit dead in
theorem Dead.backfill (dead : ∀ token ∈ index.rows, token.id = id → token.lives now = false)
    (noCopy : ¬ (index.find id = none ∧ ∃ copy ∈ copies.rows, copy.id = id ∧
      copy.lives now = true)) :
    ∀ token ∈ (TokenDb.backfill index copies).rows, token.id = id → token.lives now = false := by
  rintro token mem rfl
  rcases mem_insertAllOrIgnore mem with old | ⟨isCopy, missing⟩
  · exact dead token old rfl
  · simp_all

theorem Dead.update (sameId : ∀ token, (change token).id = token.id)
    (stays : tokenId = id → ∀ token, db.index.find id = some token →
    (change token).lives now = false) : Dead now id (db.update tokenId change).2 := by
  unfold TokenDb.update
  cases isFound : db.index.find tokenId with
  | none => exact dead
  | some old =>
    rintro token mem rfl
    rcases mem_put.mp mem with ⟨isOld, -⟩ | ⟨rfl, -⟩
    · exact dead token isOld rfl
    · have same : tokenId = (change old).id := ((sameId old).trans (find_key isFound)).symm
      exact stays same old (same ▸ isFound)

theorem Dead.tenantConn
    (noCopy : ¬ (db.opened tenantId = false ∧ (∀ token ∈ db.index.rows, token.tenantId ≠ tenantId) ∧
      CopyOutlives now id tenantId db)) :
    Dead now id (db.tenantConn tenantId) := by
  unfold TokenDb.tenantConn
  split_ifs with isOpen hasTokens
  · exact dead
  · exact dead
  · refine .backfill dead fun outlives => noCopy ⟨by simpa using isOpen, ?_, outlives⟩
    simpa using hasTokens

omit dead in
theorem TokenDb.index_createToken (fault : Option TokenFault) :
    (db.createToken fault token).2.index = db.index.insertOrIgnore token := by
  unfold createToken
  dsimp only
  split_ifs with taken failed
  · grind [insertOrIgnore]
  · rfl
  · have missing : db.index.find token.id = none := by simpa using taken
    have isRow : token ∈ (db.index.insertOrIgnore token).rows :=
      mem_insertOrIgnore.mpr (.inr ⟨rfl, missing⟩)
    have hasToken : (db.index.insertOrIgnore token).rows.any (·.tenantId = token.tenantId) = true :=
      any_eq_true.mpr ⟨token, isRow, by simp⟩
    unfold tenantConn
    split_ifs
    · rfl
    · rfl

theorem Dead.restart (tenantIds : List String)
    (noCopy : ¬ ∃ tenantId ∈ tenantIds, CopyOutlives now id tenantId db) :
    Dead now id (db.restart tenantIds) := by
  suffices holds : ∀ index : Table GitToken.id,
      (∀ token ∈ index.rows, token.id = id → token.lives now = false) →
      (index.find id = none → db.index.find id = none) → ∀ token ∈ rows (tenantIds.foldl
        (fun index tenantId => TokenDb.backfill index (db.copies tenantId)) index),
        token.id = id → token.lives now = false from holds db.index dead fun gone => gone
  induction tenantIds with
  | nil => exact fun index dead _ => dead
  | cons tenantId tenantIds ih =>
    intro index dead missing
    refine ih (fun ⟨other, mem, outlives⟩ => noCopy ⟨other, .tail _ mem, outlives⟩)
      _ (Dead.backfill dead fun ⟨gone, outlives⟩ => ?_) fun gone => missing ?_
    · exact noCopy ⟨tenantId, .head _, missing gone, outlives⟩
    · cases isRow : index.find id with
      | none => rfl
      | some row => cases gone.symm.trans (find_insertAllOrIgnore_of_find _ isRow)

/-- **A dead token stays dead** in every step that does not revive it. -/
theorem Dead.step (after : now ≤ moment.now) (call : TokenCall)
    (unrevived : ¬ Revives id db moment call) :
    Dead moment.now id (tokenHandle moment call db).2 := by
  replace dead := dead.mono after
  obtain ⟨now, fault⟩ := moment
  rcases fault with - | (- | -)
  case some.atOnce => exact dead
  all_goals
    cases call with
    | createToken token =>
      intro other mem same
      change other ∈ (db.createToken _ token).2.index.rows at mem
      rw [TokenDb.index_createToken] at mem
      rcases mem_insertOrIgnore.mp mem with old | ⟨rfl, missing⟩
      · exact dead other old same
      · exact absurd ⟨same, same ▸ missing⟩ unrevived
    | revokeToken tokenId =>
      exact dead.update (fun _ => rfl) fun _ token _ => GitToken.lives_eq_false_iff.mpr (.inl rfl)
    | setTokenExpiry tokenId expiresAt =>
      refine dead.update (fun _ => rfl) fun same token isFound => GitToken.lives_eq_false_iff.mpr ?_
      by_contra living
      rw [not_or, Bool.not_eq_true] at living
      refine unrevived ⟨same, ⟨token, isFound, living.1⟩, ?_⟩
      by_contra passed
      exact living.2 ⟨expiresAt, rfl, not_lt.mp passed⟩
    | deleteExpiredTokens => exact fun token mem => dead token (mem_of_mem_filter mem)
    | tenantConn tenantId => exact dead.tenantConn unrevived
    | restart tenantIds => exact dead.restart tenantIds unrevived
    | _ => exact dead

end

end Dead

/-! ### Every history -/

theorem Dead.replay {now : Timestamp} {id : String} {db : TokenDb} (dead : Dead now id db)
    {history : List (TokenMoment × TokenCall)}
    (inTime : (now :: history.map fun turn => turn.1.now).Pairwise (· ≤ ·))
    (unrevived : tokenHandle.Along (fun db moment call => ¬ Revives id db moment call) history db)
    {tokenPrefix : String} {returned : GitToken}
    (isReturned : (⟨.getTokenByPrefix tokenPrefix, .ok (some returned)⟩ : Sigma TokenCalls.Answer) ∈
      (tokenHandle.replay history db).1) : returned.id ≠ id := by
  induction history generalizing now db with
  | nil => cases isReturned
  | cons turn history ih =>
    obtain ⟨moment, call⟩ := turn
    obtain ⟨before, later⟩ := pairwise_cons.mp inTime
    have after : now ≤ moment.now := before _ mem_cons_self
    rcases mem_cons.mp isReturned with here | there
    · obtain ⟨rfl, same⟩ := Sigma.mk.inj here
      obtain ⟨time, fault⟩ := moment
      rcases fault with - | (- | -)
      · exact (dead.mono after).not_returned (Except.ok.inj (eq_of_heq same)).symm
      · cases eq_of_heq same
      · exact (dead.mono after).not_returned (Except.ok.inj (eq_of_heq same)).symm
    · exact ih (dead.step after call unrevived.1) later unrevived.2 there

/-- **A token that was revoked or has expired is never returned again**, at any later moment of any
history of calls, as long as no step revives it. -/
theorem dead_never_returned {now : Timestamp} {db : TokenDb} {token : GitToken}
    (stored : db.index.find token.id = some token)
    (dead : token.revoked = true ∨ ∃ expiry, token.expiresAt = some expiry ∧ expiry ≤ now)
    {history : List (TokenMoment × TokenCall)}
    (inTime : (now :: history.map fun turn => turn.1.now).Pairwise (· ≤ ·))
    (unrevived : tokenHandle.Along (fun db moment call => ¬ Revives token.id db moment call)
    history db) (tokenPrefix : String) (returned : GitToken)
    (isReturned : (⟨.getTokenByPrefix tokenPrefix, .ok (some returned)⟩ : Sigma TokenCalls.Answer) ∈
      (tokenHandle.replay history db).1) : returned.id ≠ token.id := by
  have isDead : token.lives now = false := by
    refine GitToken.lives_eq_false_iff.mpr (dead.imp_right ?_)
    rintro ⟨expiry, isExpiry, passed⟩
    exact ⟨expiry, isExpiry, dtToMs_mono passed⟩
  exact (Dead.of_find stored isDead).replay inTime unrevived isReturned

section Runs

def ciToken (id : String) : GitToken where
  id := id
  tenantId := "acme"
  tokenHash := "hash"
  tokenPrefix := "ci"
  permissions := [.push]

def atSecond (second : ℕ) : TokenMoment := ⟨second * 1000000000, none⟩

def expiredToken : GitToken := { ciToken "a" with expiresAt := some 5000000000 }

def expiringDb : TokenDb :=
  (tokenHandle.replay [(atSecond 0, .createToken (ciToken "a")),
    (atSecond 1, .createToken (ciToken "b")),
    (atSecond 2, .setTokenExpiry "a" 5000000000)] ⟨∅, fun _ => ∅, fun _ => false⟩).2

/-- The server starts while the index still has the row; when that is deleted, the index has another
token of the tenant. -/
def lookupLater : List (TokenMoment × TokenCall) :=
  [(atSecond 6, .restart ["acme"]), (atSecond 7, .tenantConn "acme"),
    (atSecond 8, .deleteExpiredTokens), (atSecond 9, .evictTenantConn "acme"),
    (atSecond 10, .tenantConn "acme"), (atSecond 12, .getTokenByPrefix "ci")]

theorem expired_not_returned :
    (⟨.getTokenByPrefix "ci", .ok (some (ciToken "b"))⟩ : Sigma TokenCalls.Answer) ∈
        (tokenHandle.replay lookupLater expiringDb).1 ∧ (ciToken "b").id ≠ expiredToken.id ∧
      (tokenHandle.replay lookupLater expiringDb).2.index.find expiredToken.id = none := by
  have isReturned : (⟨.getTokenByPrefix "ci", .ok (some (ciToken "b"))⟩ : Sigma TokenCalls.Answer) ∈
      (tokenHandle.replay lookupLater expiringDb).1 :=
    .tail _ (.tail _ (.tail _ (.tail _ (.tail _ mem_cons_self))))
  have stored : expiringDb.index.find expiredToken.id = some expiredToken := by decide +kernel
  have inTime : ((5000000000 : Timestamp) :: lookupLater.map fun turn => turn.1.now).Pairwise
      (· ≤ ·) := by
    decide
  refine ⟨isReturned, dead_never_returned stored (.inr ⟨_, rfl, le_rfl⟩) inTime ?_ _ _ isReturned,
    by decide +kernel⟩
  refine ⟨?_, ?_, id, id, ?_, id, trivial⟩
  · rintro ⟨-, -, missing, -⟩
    cases stored.symm.trans missing
  · rintro ⟨-, none, -⟩
    exact none (ciToken "b") (by decide +kernel) rfl
  · rintro ⟨-, none, -⟩
    exact none (ciToken "b") (by decide +kernel) rfl

/-- **A start of the server brings it back**: the copy in the database never had the expiry. -/
theorem expired_returned_after_restart : expiringDb.index.find expiredToken.id = some expiredToken ∧
      (⟨.getTokenByPrefix "ci", .ok (some (ciToken "a"))⟩ : Sigma TokenCalls.Answer) ∈
        (tokenHandle.replay [(atSecond 9, .revokeToken "b"), (atSecond 10, .deleteExpiredTokens),
          (atSecond 11, .restart ["acme"]), (atSecond 12, .getTokenByPrefix "ci")]
          expiringDb).1 := by
  refine ⟨by decide +kernel, ?_⟩
  exact .tail _ (.tail _ (.tail _ mem_cons_self))

end Runs

end Muli.Git
