/-
**The store of SSH keys: the tenants' tables and a global index of fingerprints.**

A key is written to the table of its tenant and then to the index; it is looked up and removed
through the index. A database that is opened fills the index, but only if its tenant has no entry
there.

* `keys_kept` — **if every addition makes both of its writes, and neither ids nor fingerprints of
  one tenant's keys come up at another's, every listed key is found and can be removed, and a
  removed one is not found.**
-/

import Muli.Core.Job

namespace Muli.Git

open List Function

/-- A key in the table of a tenant, and its entry in the index: the columns of both. -/
structure SshKeyRow where
  id : String
  tenantId : String
  fingerprint : String
deriving DecidableEq

structure SshKeyDb where
  /-- `ssh_key_fingerprints` -/
  index : List SshKeyRow := []
  /-- `ssh_keys` in the database of a tenant -/
  keys : String → List SshKeyRow := fun _ => []
  /-- The databases with a cached connection. -/
  opened : String → Bool := fun _ => false

namespace SshKeyDb

/-- `INSERT OR IGNORE` -/
def insertOrIgnore (index : List SshKeyRow) (key : SshKeyRow) : List SshKeyRow :=
  if index.any (·.id = key.id) then index else index ++ [key]

def tenantConn (tenantId : String) (db : SshKeyDb) : SshKeyDb :=
  if db.opened tenantId then db
  else
    { db with
      index := if db.index.any (·.tenantId = tenantId) then db.index
        else (db.keys tenantId).foldl insertOrIgnore db.index
      opened := update db.opened tenantId true }

/-- `whole` says whether the second write is made. -/
def addKey (whole : Bool) (key : SshKeyRow) (db : SshKeyDb) : Except MuliError String × SshKeyDb :=
  let db := db.tenantConn key.tenantId
  if (db.keys key.tenantId).any fun old => old.id = key.id ∨ old.fingerprint = key.fingerprint then
    (.error (.conflict ("SSH key with fingerprint " ++ key.fingerprint ++
      " is already registered")), db)
  else
    let db := { db with keys := update db.keys key.tenantId (db.keys key.tenantId ++ [key]) }
    if whole then (.ok key.id, { db with index := insertOrIgnore db.index key })
    else (.error (.storage "key store failed"), db)

def removeKey (whole : Bool) (keyId : String) (db : SshKeyDb) : Except MuliError Unit × SshKeyDb :=
  match db.index.find? (·.id = keyId) with
  | none => (.error (.storage ("SSH key " ++ keyId ++ " not found")), db)
  | some entry =>
    let db := db.tenantConn entry.tenantId
    let left := (db.keys entry.tenantId).filter (·.id ≠ keyId)
    let db := { db with keys := update db.keys entry.tenantId left }
    if whole then (.ok (), { db with index := db.index.filter (·.id ≠ keyId) })
    else (.error (.storage "key store failed"), db)

/-- The tenants that the index names are asked one after the other. -/
def findByFingerprint (fingerprint : String) (db : SshKeyDb) : Option SshKeyRow :=
  (db.index.filter (·.fingerprint = fingerprint)).findSome? fun entry =>
    (db.keys entry.tenantId).find? (·.fingerprint = fingerprint)

end SshKeyDb

open SshKeyDb

/-- The calls, and the opening and closing of a tenant's database. -/
inductive SshKeyCall where
  | addKey (whole : Bool) (key : SshKeyRow)
  | removeKey (whole : Bool) (keyId : String)
  | openDb (tenantId : String)
  | closeDb (tenantId : String)

def SshKeyCall.apply (db : SshKeyDb) : SshKeyCall → SshKeyDb
  | addKey whole key => (db.addKey whole key).2
  | removeKey whole keyId => (db.removeKey whole keyId).2
  | openDb tenantId => db.tenantConn tenantId
  | closeDb tenantId => { db with opened := update db.opened tenantId false }

/-- A call that adds a key makes both writes; the key is new, and no other tenant has its
fingerprint. -/
def SshKeyCall.Regular (db : SshKeyDb) : SshKeyCall → Prop
  | addKey whole key => whole = true ∧ ∀ old ∈ db.index,
      old.id ≠ key.id ∧ (old.fingerprint = key.fingerprint → old.tenantId = key.tenantId)
  | _ => True

def AllRegular : SshKeyDb → List SshKeyCall → Prop
  | _, [] => True
  | db, call :: calls => call.Regular db ∧ AllRegular (call.apply db) calls

namespace SshKeyDb

/-- **The index has the keys of all tables**, and what is left of removals that failed between
their writes. -/
structure Agree (db : SshKeyDb) : Prop where
  own : ∀ tenantId, ∀ key ∈ db.keys tenantId, key.tenantId = tenantId
  indexed : ∀ tenantId, ∀ key ∈ db.keys tenantId, key ∈ db.index
  ids : ∀ a ∈ db.index, ∀ b ∈ db.index, a.id = b.id → a = b
  tenants : ∀ a ∈ db.index, ∀ b ∈ db.index, a.fingerprint = b.fingerprint → a.tenantId = b.tenantId
  fingerprints : ∀ tenantId, ∀ a ∈ db.keys tenantId, ∀ b ∈ db.keys tenantId,
    a.fingerprint = b.fingerprint → a = b

variable {db : SshKeyDb}

@[simp] theorem tenantConn_keys (tenantId : String) : (db.tenantConn tenantId).keys = db.keys := by
  unfold tenantConn
  split_ifs <;> rfl

theorem mem_keys_update {tenantId tenantId' : String} {rows : List SshKeyRow}
    (mem : key ∈ update db.keys tenantId rows tenantId') :
    tenantId' = tenantId ∧ key ∈ rows ∨ tenantId' ≠ tenantId ∧ key ∈ db.keys tenantId' := by
  by_cases own : tenantId' = tenantId
  · subst own
    exact .inl ⟨rfl, by simpa using mem⟩
  · exact .inr ⟨own, by simpa [own] using mem⟩

section

variable (agree : Agree db)
include agree

theorem Agree.sameIndex (tenantId : String) :
    (db.tenantConn tenantId).index = db.index := by
  unfold tenantConn
  split_ifs with isOpen known
  · rfl
  · rfl
  · have empty : db.keys tenantId = [] := by
      refine eq_nil_iff_forall_not_mem.mpr fun key mem => known ?_
      exact any_eq_true.mpr
        ⟨key, agree.indexed tenantId key mem, by simp [agree.own tenantId key mem]⟩
    simp [empty]

theorem Agree.tenantConn (tenantId : String) : Agree (db.tenantConn tenantId) :=
  ⟨by simpa using agree.own, by simpa [agree.sameIndex] using agree.indexed,
    by simpa [agree.sameIndex] using agree.ids, by simpa [agree.sameIndex] using agree.tenants,
    by simpa using agree.fingerprints⟩

theorem Agree.addKey (regular : (SshKeyCall.addKey whole key).Regular db) :
    Agree (db.addKey whole key).2 := by
  obtain ⟨rfl, fresh⟩ := regular
  have newId : ¬ db.index.any (·.id = key.id) := by simpa using fun old mem => (fresh old mem).1
  simp only [SshKeyDb.addKey, insertOrIgnore, agree.sameIndex, tenantConn_keys, if_true,
    if_neg newId]
  split_ifs with taken
  · exact agree.tenantConn key.tenantId
  · have free : ∀ old ∈ db.keys key.tenantId, old.fingerprint ≠ key.fingerprint :=
      fun old mem same => taken (any_eq_true.mpr ⟨old, mem, by simp [same]⟩)
    -- the rows of a table are old ones, or the new key in the table of its tenant
    have rows : ∀ tenantId,
        ∀ other ∈ update db.keys key.tenantId (db.keys key.tenantId ++ [key]) tenantId,
        other ∈ db.keys tenantId ∨ tenantId = key.tenantId ∧ other = key := by
      intro tenantId other mem
      rcases mem_keys_update mem with ⟨rfl, mem⟩ | ⟨-, old⟩
      · simpa using mem
      · exact .inl old
    refine ⟨fun tenantId other mem => ?_, fun tenantId other mem => ?_, fun a isA b isB => ?_,
      fun a isA b isB => ?_, fun tenantId a isA b isB same => ?_⟩
    · rcases rows tenantId other mem with old | ⟨rfl, rfl⟩
      · exact agree.own tenantId other old
      · rfl
    · rcases rows tenantId other mem with old | ⟨-, rfl⟩
      · exact mem_append_left _ (agree.indexed tenantId other old)
      · exact mem_append_right _ mem_cons_self
    · have := agree.ids
      grind
    · have := agree.tenants
      grind
    · have := agree.fingerprints tenantId
      rcases rows tenantId a isA with isA | ⟨rfl, rfl⟩ <;> rcases rows _ b isB with isB | ⟨-,
        rfl⟩ <;> grind

theorem Agree.removeKey (whole : Bool) (keyId : String) : Agree (db.removeKey whole keyId).2 := by
  unfold SshKeyDb.removeKey
  cases found : db.index.find? (·.id = keyId) with
  | none => exact agree
  | some entry =>
    have isEntry : entry ∈ db.index := mem_of_find?_eq_some found
    have isId : entry.id = keyId := by simpa using find?_some found
    -- what is left of a table is without the key
    have rows : ∀ tenantId, ∀ other ∈ update db.keys entry.tenantId
        ((db.keys entry.tenantId).filter (·.id ≠ keyId)) tenantId,
        other ∈ db.keys tenantId ∧ other.id ≠ keyId := by
      intro tenantId other mem
      rcases mem_keys_update mem with ⟨rfl, mem⟩ | ⟨foreign, old⟩
      · simpa using mem
      · refine ⟨old, fun same => foreign ?_⟩
        obtain rfl := agree.ids other (agree.indexed tenantId other old) entry isEntry
          (same.trans isId.symm)
        exact (agree.own tenantId other old).symm
    cases whole
    all_goals
      simp only [agree.sameIndex, tenantConn_keys, if_true, Bool.false_eq_true, if_false]
      refine ⟨fun tenantId other mem => agree.own tenantId other (rows tenantId other mem).1,
        fun tenantId other mem => ?_, fun a isA b isB => agree.ids a ?_ b ?_,
        fun a isA b isB => agree.tenants a ?_ b ?_, fun tenantId a isA b isB =>
          agree.fingerprints tenantId a (rows tenantId a isA).1 b (rows tenantId b isB).1⟩
      · have := agree.indexed tenantId other (rows tenantId other mem).1
        simpa [(rows tenantId other mem).2] using this
      all_goals first | assumption | exact mem_of_mem_filter (by assumption)

theorem Agree.apply {call : SshKeyCall} (regular : call.Regular db) :
    Agree (call.apply db) := by
  cases call with
  | addKey whole key => exact agree.addKey regular
  | removeKey whole keyId => exact agree.removeKey whole keyId
  | openDb tenantId => exact agree.tenantConn tenantId
  | closeDb tenantId =>
    exact ⟨agree.own, agree.indexed, agree.ids, agree.tenants, agree.fingerprints⟩

theorem Agree.run {calls : List SshKeyCall} (regular : AllRegular db calls) :
    Agree (calls.foldl SshKeyCall.apply db) := by
  induction calls generalizing db with
  | nil => exact agree
  | cons call calls ih => exact ih (agree.apply regular.1) regular.2

theorem Agree.isFound (listed : key ∈ db.keys key.tenantId) :
    db.findByFingerprint key.fingerprint = some key := by
  have indexed := agree.indexed key.tenantId key listed
  have inTable : (db.keys key.tenantId).find? (·.fingerprint = key.fingerprint) = some key := by
    cases found : (db.keys key.tenantId).find? (·.fingerprint = key.fingerprint) with
    | none => exact absurd (find?_eq_none.mp found key listed) (by simp)
    | some other =>
      have same : other.fingerprint = key.fingerprint := by simpa using find?_some found
      rw [agree.fingerprints _ other (mem_of_find?_eq_some found) key listed same]
  -- every entry with the fingerprint leads to the table of the key's tenant
  have entries : ∀ entry ∈ db.index.filter (·.fingerprint = key.fingerprint),
      entry.tenantId = key.tenantId := fun entry mem =>
    agree.tenants entry (mem_of_mem_filter mem) key indexed (by simpa using (mem_filter.mp mem).2)
  unfold findByFingerprint
  cases shape : db.index.filter (·.fingerprint = key.fingerprint) with
  | nil => exact absurd (mem_filter.mpr ⟨indexed, by simp⟩) (shape ▸ not_mem_nil)
  | cons entry rest =>
    rw [findSome?_cons, entries entry (shape ▸ mem_cons_self), inTable]

theorem Agree.isRemoved (listed : key ∈ db.keys key.tenantId) :
    (db.removeKey true key.id).1 = .ok () := by
  unfold SshKeyDb.removeKey
  cases found : db.index.find? (·.id = key.id) with
  | none => exact absurd (find?_eq_none.mp found key (agree.indexed _ key listed)) (by simp)
  | some entry => rfl

theorem Agree.lacks_removed (removed : (db.removeKey true keyId).1 = .ok ())
    (mem : key ∈ (db.removeKey true keyId).2.keys tenantId) : key.id ≠ keyId := by
  have indexed := (agree.removeKey true keyId).indexed tenantId key mem
  revert removed indexed
  unfold SshKeyDb.removeKey
  cases db.index.find? (·.id = keyId) <;> simp

end

/-- A key in a table has been there or is the one that was added. -/
theorem mem_keys_apply {call : SshKeyCall} (mem : key ∈ (call.apply db).keys tenantId) :
    key ∈ db.keys tenantId ∨ ∃ whole, call = .addKey whole key := by
  cases call with
  | addKey whole added =>
    simp only [SshKeyCall.apply, addKey, tenantConn_keys] at mem
    by_cases own : tenantId = added.tenantId
    · subst own
      split_ifs at mem <;> simp at mem <;> tauto
    · split_ifs at mem <;> simp [own] at mem <;> tauto
  | removeKey whole keyId =>
    simp only [SshKeyCall.apply, removeKey] at mem
    split at mem
    · exact .inl mem
    next entry _ =>
      by_cases own : tenantId = entry.tenantId
      · subst own
        cases whole <;> simp at mem <;> tauto
      · cases whole <;> simp [own] at mem <;> tauto
  | openDb other => exact .inl (by simpa [SshKeyCall.apply] using mem)
  | closeDb other => exact .inl mem

theorem mem_keys_run {calls : List SshKeyCall}
    (mem : key ∈ (calls.foldl SshKeyCall.apply db).keys tenantId) :
    key ∈ db.keys tenantId ∨ ∃ whole, .addKey whole key ∈ calls := by
  induction calls generalizing db with
  | nil => exact .inl mem
  | cons call calls ih =>
    rcases ih mem with before | ⟨whole, later⟩
    · rcases mem_keys_apply before with before | ⟨whole, rfl⟩
      · exact .inl before
      · exact .inr ⟨whole, .head _⟩
    · exact .inr ⟨whole, .tail _ later⟩

theorem mem_keys_of_found (found : db.findByFingerprint fingerprint = some key) :
    ∃ tenantId, key ∈ db.keys tenantId := by
  obtain ⟨entry, -, inTable⟩ := exists_of_findSome?_eq_some found
  exact ⟨entry.tenantId, mem_of_find?_eq_some inTable⟩

/-- **After regular calls, every listed key is found and can be removed; a removed one is not found,
until its id is used again.** -/
theorem keys_kept {calls : List SshKeyCall} (regular : AllRegular {} calls) :
    let db := calls.foldl SshKeyCall.apply {}
    (∀ tenantId, ∀ key ∈ db.keys tenantId, key.tenantId = tenantId ∧
      db.findByFingerprint key.fingerprint = some key ∧ (db.removeKey true key.id).1 = .ok ()) ∧
    ∀ keyId, (db.removeKey true keyId).1 = .ok () →
      ∀ later : List SshKeyCall, (∀ whole key, .addKey whole key ∈ later → key.id ≠ keyId) →
        ∀ fingerprint key, (later.foldl SshKeyCall.apply
          (db.removeKey true keyId).2).findByFingerprint fingerprint = some key →
          key.id ≠ keyId := by
  intro db
  have agree : Agree db := .run ⟨by simp, by simp, by simp, by simp, by simp⟩ regular
  refine ⟨fun tenantId key listed => ?_, fun keyId removed later unused fingerprint key found => ?_⟩
  · obtain rfl := agree.own tenantId key listed
    exact ⟨rfl, agree.isFound listed, agree.isRemoved listed⟩
  · obtain ⟨tenantId, member⟩ := mem_keys_of_found found
    rcases mem_keys_run member with before | ⟨whole, added⟩
    · exact agree.lacks_removed removed before
    · exact unused whole key added

def firstKey : SshKeyRow := ⟨"k1", "acme", "SHA256:1"⟩

def secondKey : SshKeyRow := ⟨"k2", "acme", "SHA256:2"⟩

/-- The first removal of the second key fails between its writes. -/
def addedAgain : List SshKeyCall :=
  [.addKey true firstKey, .closeDb "acme", .addKey true secondKey, .removeKey false "k2",
    .addKey true { secondKey with id := "k3" }]

/-- The key is found under its new id, beside what is left of the old one. -/
theorem keys_kept_addedAgain :
    (addedAgain.foldl SshKeyCall.apply {}).findByFingerprint "SHA256:2" =
        some { secondKey with id := "k3" } ∧
      secondKey ∈ (addedAgain.foldl SshKeyCall.apply {}).index := by
  have regular : AllRegular {} addedAgain :=
    ⟨⟨rfl, by simp⟩, trivial, ⟨rfl, by decide⟩, trivial, ⟨rfl, by decide⟩, trivial⟩
  exact ⟨((keys_kept regular).1 "acme" { secondKey with id := "k3" } (by decide)).2.1, by decide⟩

/-- A key whose second write failed stays listed. Nothing finds or removes it, not even when the
database is opened again. -/
theorem key_lost :
    let db :=
    [.addKey true firstKey, .addKey false secondKey, .closeDb "acme", .openDb "acme"].foldl
      SshKeyCall.apply {}
    secondKey ∈ db.keys "acme" ∧ db.findByFingerprint "SHA256:2" = none ∧
      (db.removeKey true "k2").1 = .error (.storage "SSH key k2 not found") :=
  ⟨by decide, by decide, by decide⟩

end SshKeyDb

end Muli.Git
