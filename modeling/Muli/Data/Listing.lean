/-
**Rows in no particular order, and rows that are sorted.**

* `Scan` — an order in which rows come out when nothing fixes one; `Table.scanned` — a table in that
  order. `Table.find_of_perm` — a lookup by key does not depend on it.
* `sortDesc` — a stable sort, the largest key first. `eq_sortDesc` — **where no two rows have the
  same key, there is only one sorted order.**
-/

import Mathlib.Data.List.Sort
import Muli.Data.Table

structure Scan (ρ : Type) where
  order : List ρ → List ρ
  perm : ∀ rows, (order rows).Perm rows

namespace Scan

variable {ρ : Type}

def forward : Scan ρ := ⟨id, fun rows => List.Perm.refl rows⟩

def backward : Scan ρ := ⟨List.reverse, List.reverse_perm⟩

end Scan

namespace Table

variable {κ ρ : Type} {key : ρ → κ}

def scanned (scan : Scan ρ) (table : Table key) : Table key where
  rows := scan.order table.rows
  nodup := ((scan.perm table.rows).map key).nodup_iff.mpr table.nodup

theorem find_of_perm [DecidableEq κ] {table table' : Table key} (perm : table.rows.Perm table'.rows)
    (k : κ) : table.find k = table'.find k := by
  ext row
  rw [find_eq_some, find_eq_some, perm.mem_iff]

end Table

section Sorting

variable {α κ : Type} [LinearOrder κ]

/-- The list sorted by `f`, the largest first; what is equal stays in its order. -/
def sortDesc (f : α → κ) (items : List α) : List α := items.insertionSort fun a b => f b ≤ f a

theorem sortDesc_perm (f : α → κ) (items : List α) : (sortDesc f items).Perm items :=
  List.perm_insertionSort _ items

theorem pairwise_sortDesc (f : α → κ) (items : List α) :
    (sortDesc f items).Pairwise fun a b => f b ≤ f a := by
  exact List.pairwise_insertionSort _ items

/-- **There is only one sorted order of items with different keys.** -/
theorem eq_sortDesc {f : α → κ} (perm : sorted.Perm items)
    (isSorted : sorted.Pairwise fun a b => f b ≤ f a) (distinct : (items.map f).Nodup) :
    sorted = sortDesc f items := by
  refine List.Perm.eq_of_pairwise ?_ isSorted (pairwise_sortDesc f items)
    (perm.trans (sortDesc_perm f items).symm)
  intro a b inSorted inItems ge le
  refine List.inj_on_of_nodup_map distinct (perm.subset inSorted) ?_ (le_antisymm le ge)
  exact (sortDesc_perm f items).subset inItems

end Sorting

/-- **The pages of a list, put together, are the list.** -/
theorem flatMap_pages {α : Type} (items : List α) (size pages : ℕ) :
    ((List.range pages).flatMap fun i => (items.drop (i * size)).take size) =
    items.take (pages * size) := by
  induction pages with
  | zero => simp
  | succ pages ih =>
    rw [List.range_succ, List.flatMap_append, ih, Nat.succ_mul, List.take_add]
    simp
