/-
**A max-heap by its contents.**

A heap is the list of its entries; `extractMax` takes out an entry of the highest rank, the first
one in the list when several are equal. The lemmas say which entry comes out and what stays, for any
rank into a linear order.
-/

import Mathlib.Data.List.Perm.Basic
import Mathlib.Order.Lattice
import Mathlib.Tactic.Common

namespace Heap

variable {α κ : Type} [LinearOrder κ] (rank : α → κ)

def extractMax : List α → Option (α × List α)
  | [] => none
  | entry :: entries =>
    match extractMax entries with
    | none => some (entry, [])
    | some (best, others) =>
      if rank best ≤ rank entry then some (entry, entries) else some (best, entry :: others)

variable {rank} {best : α} {entries others : List α}

theorem extractMax_eq_none : extractMax rank entries = none ↔ entries = [] := by
  cases entries with
  | nil => simp [extractMax]
  | cons entry entries =>
    simp only [extractMax, reduceCtorEq, iff_false]
    cases extractMax rank entries with
    | none => simp
    | some found => by_cases le : rank found.1 ≤ rank entry <;> simp [le]

section

variable (found : extractMax rank entries = some (best, others))
include found

theorem extractMax_perm :
    entries.Perm (best :: others) := by
  induction entries generalizing best others with
  | nil => simp [extractMax] at found
  | cons entry entries ih =>
    cases rest : extractMax rank entries with
    | none =>
      obtain rfl := extractMax_eq_none.mp rest
      simp only [extractMax, Option.some.injEq, Prod.mk.injEq] at found
      rw [← found.1, ← found.2]
    | some next =>
      simp only [extractMax, rest] at found
      split at found
      · simp_all
      · simp only [Option.some.injEq, Prod.mk.injEq] at found
        rw [← found.1, ← found.2]
        exact ((ih rest).cons entry).trans (.swap ..)

theorem length_of_extractMax :
    entries.length = others.length + 1 := (extractMax_perm found).length_eq

theorem rank_le_of_extractMax :
    ∀ entry ∈ entries, rank entry ≤ rank best := by
  induction entries generalizing best others with
  | nil => simp
  | cons entry entries ih =>
    cases rest : extractMax rank entries with
    | none => grind [extractMax_eq_none, extractMax]
    | some next =>
      simp only [extractMax, rest] at found
      split at found
      · next le => grind
      · next gt => grind

end

theorem extractMax_cons (highest : ∀ entry ∈ entries, rank entry ≤ rank best) :
    extractMax rank (best :: entries) = some (best, entries) := by
  cases rest : extractMax rank entries with
  | none =>
    obtain rfl := extractMax_eq_none.mp rest
    rfl
  | some next =>
    have mem : next.1 ∈ entries :=
      (extractMax_perm rest).mem_iff.mpr (.head _ ..)
    simp only [extractMax, rest, if_pos (highest next.1 mem)]

end Heap
