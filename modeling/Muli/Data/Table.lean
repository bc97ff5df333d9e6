/-
**Tables with a primary key.**

Rows in insertion order, no two with the same key. `Table.put` is the whole-row `UPDATE`: it
replaces the row that has the key and does nothing when there is none.

* `Table.insert` — a row with a new key; `Table.upsert`, `Table.erase` — the `insert` and `remove`
  of a map; `Table.perm_erase` — what is erased is the one row with the key.
* `Table.insertOrIgnore` — the `INSERT OR IGNORE`: a row whose key is taken is dropped;
  `Table.insertAllOrIgnore` — the same for many rows; `Table.keep` — the rows that a `DELETE`
  leaves; `Table.insertOrUpdate` — the `INSERT … ON CONFLICT DO UPDATE`: the row that has the key is
  changed.
* `Table.map` — a table seen through a projection that keeps the keys; lookups commute with it
  (`Table.find_map`).
* `Assoc` — a table of keys and values; `Assoc.get_set` — what stands under a key after a `set`;
  `Assoc.total_set`, `Assoc.total_erase` — what a change does to the size of the whole.
-/

import Mathlib.Algebra.GroupWithZero.Nat
import Mathlib.Data.List.Nodup
import Mathlib.Tactic.Common

/-- A list of rows in which `key` identifies a row. -/
@[ext] structure Table {κ ρ : Type} (key : ρ → κ) where
  rows : List ρ
  nodup : (rows.map key).Nodup

instance {κ ρ : Type} {key : ρ → κ} [DecidableEq ρ] : DecidableEq (Table key) := fun first second =>
  decidable_of_iff (first.rows = second.rows) Table.ext_iff.symm

instance {κ ρ : Type} {key : ρ → κ} [Repr ρ] : Repr (Table key) :=
  ⟨fun table => reprPrec table.rows⟩

instance {κ ρ : Type} {key : ρ → κ} : EmptyCollection (Table key) := ⟨⟨[], List.nodup_nil⟩⟩

namespace Table

open List Option

variable {κ ρ ρ' : Type} [DecidableEq κ] {key : ρ → κ} {key' : ρ' → κ}

def find (table : Table key) (k : κ) : Option ρ := table.rows.find? fun row => key row = k

/-- Replace the row that has the key of `row`, if there is one. -/
def put (table : Table key) (row : ρ) : Table key where
  rows := table.rows.map fun old => if key old = key row then row else old
  nodup := by
    have sameKeys : (table.rows.map fun old => if key old = key row then row else old).map key =
        table.rows.map key := by
      rw [List.map_map]
      refine map_congr_left fun old _ => ?_
      by_cases same : key old = key row <;> simp [same]
    exact sameKeys ▸ table.nodup

omit [DecidableEq κ] in
theorem eq_of_mem {table : Table key} (mem : row ∈ table.rows) (mem' : row' ∈ table.rows)
    (same : key row = key row') : row = row' :=
  inj_on_of_nodup_map table.nodup mem mem' same

variable {table : Table key} {k : κ} {row : ρ}

theorem find_eq_some : table.find k = some row ↔ row ∈ table.rows ∧ key row = k := by
  constructor
  · intro found
    exact ⟨mem_of_find?_eq_some found, by simpa using find?_some found⟩
  · rintro ⟨mem, rfl⟩
    cases found : table.find (key row) with
    | none => simpa using find?_eq_none.mp found row mem
    | some row' =>
      have same : key row' = key row := by simpa using find?_some found
      rw [eq_of_mem (mem_of_find?_eq_some found) mem same]

theorem find_key (found : table.find k = some row) :
    key row = k := (find_eq_some.mp found).2

theorem mem_put : new ∈ (table.put row).rows ↔ new ∈ table.rows ∧ key new ≠ key row ∨
      new = row ∧ ∃ old ∈ table.rows, key old = key row := by
  simp only [put, List.mem_map]
  constructor
  · rintro ⟨old, mem, rfl⟩
    by_cases same : key old = key row
    · exact .inr ⟨if_pos same, old, mem, same⟩
    · simp [*]
  · rintro (⟨mem, other⟩ | ⟨rfl, old, mem, same⟩)
    · exact ⟨new, mem, if_neg other⟩
    · exact ⟨old, mem, if_pos same⟩

theorem find_put (table : Table key) (row : ρ) (k : κ) : (table.put row).find k =
      if k = key row then (table.find k).map fun _ => row else table.find k := by
  ext new
  rw [find_eq_some, mem_put]
  by_cases same : k = key row
  · subst same
    rw [if_pos rfl, map_eq_some_iff]
    constructor
    · rintro ⟨⟨-, other⟩ | ⟨rfl, old, mem, sameKey⟩, isKey⟩
      · exact absurd isKey other
      · exact ⟨old, find_eq_some.mpr ⟨mem, sameKey⟩, rfl⟩
    · rintro ⟨old, found, rfl⟩
      exact ⟨.inr ⟨rfl, old, find_eq_some.mp found⟩, rfl⟩
  · rw [if_neg same, find_eq_some]
    constructor
    · rintro ⟨⟨mem, -⟩ | ⟨rfl, -⟩, isKey⟩
      · exact ⟨mem, isKey⟩
      · exact absurd isKey.symm same
    · simp_all

theorem find_put_cases (table : Table key) (row : ρ) (k : κ) :
      (table.put row).find k = table.find k ∨ key row = k ∧ (table.put row).find k = some row := by
  rw [find_put]
  split_ifs with same
  · cases table.find k with
    | none => exact .inl rfl
    | some old => exact .inr ⟨same.symm, rfl⟩
  · exact .inl rfl

theorem find_put_of_find (row : ρ) (found : table.find (key row) = some old) (k : κ) :
    (table.put row).find k = if k = key row then some row else table.find k := by
  rw [find_put]
  split_ifs with same
  · rw [same, found]
    rfl
  · rfl

theorem map_find_put {β : Type} {f : ρ → β} (known : (table.find (key row)).map f ≠ none) (k : κ) :
    ((table.put row).find k).map f = if k = key row then some (f row)
    else (table.find k).map f := by
  obtain ⟨old, found⟩ := ne_none_iff_exists'.mp (mt (congrArg (Option.map f)) known)
  rw [find_put_of_find row found, apply_ite (Option.map f)]
  rfl

theorem find_put_self (row : ρ) (found : table.find (key row) = some old) :
    (table.put row).find (key row) = some row := by
  simp [find_put, found]

/-! ### Maps -/

def erase (table : Table key) (k : κ) : Table key where
  rows := table.rows.filter fun row => key row ≠ k
  nodup := table.nodup.sublist (filter_sublist.map key)

omit [DecidableEq κ] in
def insert (table : Table key) (row : ρ) (isNew : ∀ old ∈ table.rows, key old ≠ key row) :
    Table key where
  rows := table.rows ++ [row]
  nodup := by
    rw [map_append, nodup_append]
    refine ⟨table.nodup, nodup_singleton _, fun k old k' new => ?_⟩
    obtain ⟨kept, member, rfl⟩ := mem_map.mp old
    obtain rfl : k' = key row := by simpa using new
    exact isNew kept member

def upsert (table : Table key) (row : ρ) : Table key :=
  (table.erase (key row)).insert row fun _ member => by simpa using (mem_filter.mp member).2

theorem perm_erase (found : table.find k = some row) :
    table.rows.Perm (row :: (table.erase k).rows) := by
  obtain ⟨mem, rfl⟩ := find_eq_some.mp found
  obtain ⟨before, later, split⟩ := append_of_mem mem
  have nodup := table.nodup
  rw [split, map_append, map_cons, nodup_middle, nodup_cons,
    ← map_append] at nodup
  have others : ∀ other ∈ before ++ later, key other ≠ key row := fun other inRest same =>
    nodup.1 (same ▸ mem_map_of_mem inRest)
  have kept : (table.erase (key row)).rows = before ++ later := by
    simp only [erase, split, filter_append, filter_cons, ne_eq, not_true_eq_false,
      decide_false, Bool.false_eq_true, if_false]
    rw [← filter_append]
    exact filter_eq_self.mpr fun other inRest => by simpa using others other inRest
  rw [kept, split]
  exact perm_middle

theorem rows_foldl_erase (table : Table key) (ks : List κ) :
    (ks.foldl erase table).rows = table.rows.filter fun row => key row ∉ ks := by
  induction ks generalizing table with
  | nil => simp
  | cons k ks ih =>
    rw [foldl_cons, ih]
    simp only [erase, List.filter_filter, List.mem_cons, not_or]
    refine List.filter_congr fun row _ => ?_
    by_cases other : key row = k <;> simp [other]

theorem rows_erase_of_find_none (missing : table.find k = none) :
    (table.erase k).rows = table.rows := by
  refine filter_eq_self.mpr fun other mem => ?_
  simpa using find?_eq_none.mp missing other mem

theorem erase_of_find_none (missing : table.find k = none) : table.erase k = table :=
  Table.ext (rows_erase_of_find_none missing)

theorem rows_upsert (table : Table key) (row : ρ) :
    (table.upsert row).rows = (table.erase (key row)).rows ++ [row] := rfl

theorem rows_upsert_of_find_none
    (missing : table.find (key row) = none) : (table.upsert row).rows = table.rows ++ [row] := by
  rw [rows_upsert, rows_erase_of_find_none missing]

theorem find_erase (table : Table key) (k k' : κ) :
    (table.erase k).find k' = if k = k' then none else table.find k' := by
  split_ifs with same
  · subst same
    refine find?_eq_none.mpr fun row mem => ?_
    simpa using (mem_filter.mp mem).2
  · ext row
    rw [find_eq_some, find_eq_some]
    show row ∈ table.rows.filter _ ∧ _ ↔ _
    rw [mem_filter]
    constructor
    · exact fun found => ⟨found.1.1, found.2⟩
    · grind

def upsertAll (table : Table key) (rows : List ρ) : Table key := rows.foldl upsert table

theorem find_upsert (table : Table key) (row : ρ) (k : κ) :
    (table.upsert row).find k = if key row = k then some row else table.find k := by
  show ((table.rows.filter fun other => key other ≠ key row) ++ [row]).find? _ = _
  rw [find?_append, find?_filter]
  unfold find
  by_cases same : key row = k
  · have others : table.rows.find? (fun other => decide (decide (key other ≠ key row) = true ∧
        decide (key other = k) = true)) = none := by
      rw [find?_eq_none]
      intro other _ hit
      simp only [decide_eq_true_eq] at hit
      exact hit.1 (hit.2.trans same.symm)
    rw [others]
    simp [same]
  · have others : (fun other : ρ => decide (decide (key other ≠ key row) = true ∧
        decide (key other = k) = true)) = fun other => decide (key other = k) := by
      funext other
      by_cases isKey : key other = k
      · simp [isKey, Ne.symm same]
      · simp [isKey]
    rw [others]
    simp [same]

/-- **The last row with a key is found**, or what was there before. -/
theorem find_upsertAll (table : Table key) (rows : List ρ) (k : κ) :
    (table.upsertAll rows).find k = (rows.reverse.find? fun row => key row = k).or
    (table.find k) := by
  induction rows generalizing table with
  | nil => rfl
  | cons row rows ih =>
    show ((table.upsert row).upsertAll rows).find k = _
    rw [ih, find_upsert, reverse_cons, find?_append]
    by_cases same : key row = k <;> simp [same]

theorem filter_rows (table : Table key) (k : κ) :
    (table.rows.filter fun row => key row = k) = (table.find k).toList := by
  cases found : table.find k with
  | none =>
    rw [toList_none, filter_eq_nil_iff]
    exact find?_eq_none.mp found
  | some row =>
    have split := (perm_erase found).filter fun row => key row = k
    have others : ((table.erase k).rows.filter fun row => key row = k) = [] := by
      simp [erase, List.filter_filter]
    rw [filter_cons_of_pos (by simpa using find_key found), others] at split
    exact perm_singleton.mp split

theorem find?_reverse_rows (table : Table key) (k : κ) :
    (table.rows.reverse.find? fun row => key row = k) = table.find k := by
  rw [← head?_filter, filter_reverse, filter_rows]
  cases table.find k <;> rfl

/-! ### Insertion -/

def insertOrIgnore (table : Table key) (row : ρ) : Table key :=
  if missing : table.find (key row) = none then
    { rows := table.rows ++ [row]
      nodup := by
        rw [← rows_upsert_of_find_none missing]
        exact (table.upsert row).nodup }
  else table

theorem mem_insertOrIgnore : new ∈ (table.insertOrIgnore row).rows ↔
      new ∈ table.rows ∨ new = row ∧ table.find (key row) = none := by
  unfold insertOrIgnore
  split_ifs with missing <;> simp [missing]

theorem exists_mem_insertOrIgnore (table : Table key) (row : ρ) :
    ∃ stored ∈ (table.insertOrIgnore row).rows, key stored = key row := by
  cases found : table.find (key row) with
  | none => exact ⟨row, mem_insertOrIgnore.mpr (.inr ⟨rfl, found⟩), rfl⟩
  | some stored =>
    obtain ⟨mem, same⟩ := find_eq_some.mp found
    exact ⟨stored, mem_insertOrIgnore.mpr (.inl mem), same⟩

theorem find_insertOrIgnore_of_find (row : ρ) (isOld : table.find k = some old) :
    (table.insertOrIgnore row).find k = some old := by
  obtain ⟨isRow, sameKey⟩ := find_eq_some.mp isOld
  exact find_eq_some.mpr ⟨mem_insertOrIgnore.mpr (.inl isRow), sameKey⟩

def insertAllOrIgnore (table : Table key) (rows : List ρ) :
    Table key := rows.foldl insertOrIgnore table

theorem mem_insertAllOrIgnore {rows : List ρ} (mem : row ∈ (table.insertAllOrIgnore rows).rows) :
    row ∈ table.rows ∨ row ∈ rows ∧ table.find (key row) = none := by
  induction rows generalizing table with
  | nil => exact .inl mem
  | cons first rows ih =>
    rcases @ih (table.insertOrIgnore first) mem with before | ⟨later, missing⟩
    · rcases mem_insertOrIgnore.mp before with old | ⟨rfl, missing⟩
      · exact .inl old
      · exact .inr ⟨.head _, missing⟩
    · refine .inr ⟨.tail _ later, ?_⟩
      cases isOld : table.find (key row) with
      | none => rfl
      | some old => cases missing.symm.trans (find_insertOrIgnore_of_find first isOld)

theorem find_insertAllOrIgnore_of_find (rows : List ρ) (isOld : table.find k = some old) :
    (table.insertAllOrIgnore rows).find k = some old := by
  induction rows generalizing table with
  | nil => exact isOld
  | cons row rows ih => exact ih (find_insertOrIgnore_of_find row isOld)

omit [DecidableEq κ] in
def keep (p : ρ → Bool) (table : Table key) : Table key where
  rows := table.rows.filter p
  nodup := table.nodup.sublist (filter_sublist.map key)

/-- Add the row, or change the one that has its key. -/
def insertOrUpdate (table : Table key) (row : ρ) (update : ρ → ρ) : Table key :=
  match table.find (key row) with
  | none => table.upsert row
  | some old => table.put (update old)

theorem find_insertOrUpdate (table : Table key) (row : ρ)
    (keepsKey : ∀ old, key (update old) = key old) (k : κ) :
    (table.insertOrUpdate row update).find k =
      if key row = k then some (((table.find k).map update).getD row) else table.find k := by
  unfold insertOrUpdate
  cases found : table.find (key row) with
  | none =>
    rw [find_upsert]
    split_ifs with same
    · rw [← same, found]
      rfl
    · rfl
  | some old =>
    rw [find_put, keepsKey, find_key found]
    simp only [eq_comm (a := k)]
    split_ifs with same
    · rw [← same, found]
      rfl
    · rfl

/-! ### Projections -/

def map (f : ρ → ρ') (sameKey : ∀ row, key' (f row) = key row) (table : Table key) :
    Table key' where
  rows := table.rows.map f
  nodup := by
    have sameKeys : (table.rows.map f).map key' = table.rows.map key := by
      simp [Function.comp_def, sameKey]
    exact sameKeys ▸ table.nodup

variable {f : ρ → ρ'} {sameKey : ∀ row, key' (f row) = key row}

theorem find_map (table : Table key) (k : κ) :
    (table.map f sameKey).find k = (table.find k).map f := by
  unfold find map
  rw [find?_map]
  simp only [Function.comp_def, sameKey]

end Table

/-! ### Values under keys -/

abbrev Assoc (κ α : Type) := Table (Prod.fst : κ × α → κ)

namespace Assoc

variable {κ α : Type} [DecidableEq κ]

def get (entries : Assoc κ α) (k : κ) : Option α := (Table.find entries k).map Prod.snd

def set (entries : Assoc κ α) (k : κ) (value : α) : Assoc κ α := Table.upsert entries (k, value)

theorem get_set (entries : Assoc κ α) (k k' : κ) (value : α) :
    (entries.set k value).get k' = if k = k' then some value else entries.get k' := by
  unfold get set
  rw [Table.find_upsert, apply_ite (Option.map Prod.snd)]
  rfl

theorem get_set_self (entries : Assoc κ α) (k : κ) (value : α) :
    (entries.set k value).get k = some value := by
  rw [get_set, if_pos rfl]

theorem get_set_of_ne {k : κ} (other : k ≠ k') (entries : Assoc κ α) (value : α) :
    (entries.set k value).get k' = entries.get k' := by
  rw [get_set, if_neg other]

theorem get_erase (entries : Assoc κ α) (k k' : κ) :
    get (Table.erase entries k) k' = if k = k' then none else entries.get k' := by
  unfold get
  rw [Table.find_erase, apply_ite (Option.map Prod.snd)]
  rfl

theorem isSome_get {entries : Assoc κ α} {k : κ} :
    (entries.get k).isSome ↔ k ∈ entries.rows.map Prod.fst := by
  unfold get
  rw [Option.isSome_map, Option.isSome_iff_exists, List.mem_map]
  exact exists_congr fun entry => Table.find_eq_some

def total (size : α → ℕ) (entries : Assoc κ α) :
    ℕ := (entries.rows.map fun entry => size entry.2).sum

/-- The size of the value under a key, 0 if there is none. -/
def sizeAt (size : α → ℕ) (entries : Assoc κ α) (k : κ) : ℕ := ((entries.get k).map size).getD 0

theorem sizeAt_set (size : α → ℕ) (entries : Assoc κ α) (k k' : κ) (value : α) :
    (entries.set k value).sizeAt size k' = if k = k' then size value
    else entries.sizeAt size k' := by
  unfold sizeAt
  rw [get_set]
  split_ifs <;> rfl

theorem total_erase (size : α → ℕ) (entries : Assoc κ α) (k : κ) :
    total size (Table.erase entries k) + entries.sizeAt size k = entries.total size := by
  unfold sizeAt get total
  cases found : Table.find entries k with
  | none =>
    rw [Table.rows_erase_of_find_none found]
    rfl
  | some entry =>
    rw [((Table.perm_erase found).map fun entry => size entry.2).sum_nat, List.map_cons,
      List.sum_cons, Nat.add_comm]
    rfl

theorem total_set (size : α → ℕ) (entries : Assoc κ α) (k : κ) (value : α) :
    (entries.set k value).total size + entries.sizeAt size k = entries.total size + size value := by
  have isSum : (entries.set k value).total size = total size (.erase entries k) + size value := by
    unfold total set
    rw [Table.rows_upsert, List.map_append, List.sum_append]
    rfl
  rw [isSum, ← total_erase size entries k]
  omega

end Assoc
