/-
**Base64: bytes as characters, three bytes to four.**

* `decode_encode` — **what is encoded can be read back**; `mem_encode` — the characters of the code.
-/

import Mathlib.Data.List.Basic
import Mathlib.Tactic.Common

namespace Radix64

open List

def digits : List Char := "ABCDEFGHIJKLMNOPQRSTUVWXYZabcdefghijklmnopqrstuvwxyz0123456789+/".toList

def digit (n : ℕ) : Char := digits.getD (n % 64) '='

def value (c : Char) : Option ℕ := digits.idxOf? c

/-- The last group is filled up with `=`. -/
def encode : List UInt8 → List Char
  | [] => []
  | [a] => [digit (a.toNat / 4), digit (a.toNat * 16), '=', '=']
  | [a, b] =>
    [digit (a.toNat / 4), digit (a.toNat * 16 + b.toNat / 16), digit (b.toNat * 4), '=']
  | a :: b :: c :: rest =>
    [digit (a.toNat / 4), digit (a.toNat * 16 + b.toNat / 16), digit (b.toNat * 4 + c.toNat / 64),
      digit c.toNat] ++ encode rest

/-- What is left over of the last digit has to be zero. -/
def decode : List Char → Option (List UInt8)
  | [] => some []
  | a :: b :: c :: d :: rest =>
    if rest = [] ∧ c = '=' ∧ d = '=' then do
      let x ← value a
      let y ← value b
      if y % 16 = 0 then some [UInt8.ofNat (x * 4 + y / 16)] else none
    else if rest = [] ∧ d = '=' then do
      let x ← value a
      let y ← value b
      let z ← value c
      if z % 4 = 0 then some [UInt8.ofNat (x * 4 + y / 16), UInt8.ofNat (y * 16 + z / 4)] else none
    else do
      let x ← value a
      let y ← value b
      let z ← value c
      let w ← value d
      let bytes ← decode rest
      some (UInt8.ofNat (x * 4 + y / 16) :: UInt8.ofNat (y * 16 + z / 4) ::
        UInt8.ofNat (z * 64 + w) :: bytes)
  | _ => none

theorem value_digit (n : ℕ) : value (digit n) = some (n % 64) := by
  have all : ∀ i < 64, value (digits.getD i '=') = some i := by decide +kernel
  exact all _ (Nat.mod_lt _ (by decide))

theorem digit_ne_equals (n : ℕ) : digit n ≠ '=' := by
  have all : ∀ i < 64, digits.getD i '=' ≠ '=' := by decide +kernel
  exact all _ (Nat.mod_lt _ (by decide))

theorem ofNat_eq {n : ℕ} {a : UInt8} (same : n % 256 = a.toNat) : UInt8.ofNat n = a :=
  UInt8.toNat.inj (by rw [UInt8.toNat_ofNat', ← same])

/-- **What is encoded can be read back.** -/
theorem decode_encode (bytes : List UInt8) : decode (encode bytes) = some bytes := by
  induction bytes using encode.induct with
  | case1 => rfl
  | case2 a =>
    have := a.toNat_lt
    simp only [encode, decode, value_digit, and_self, if_true, Option.bind_eq_bind,
      Option.bind_some]
    rw [if_pos (by omega), ofNat_eq (a := a) (by omega)]
  | case3 a b =>
    have := a.toNat_lt
    have := b.toNat_lt
    simp only [encode, decode, value_digit, digit_ne_equals, false_and, and_false,
      and_self, if_true, if_false, Option.bind_eq_bind, Option.bind_some]
    rw [if_pos (by omega), ofNat_eq (a := a) (by omega), ofNat_eq (a := b) (by omega)]
  | case4 a b c rest ih =>
    have := a.toNat_lt
    have := b.toNat_lt
    have := c.toNat_lt
    simp only [encode, decode, cons_append, nil_append, value_digit, digit_ne_equals, and_false,
      if_false, ih, Option.bind_eq_bind, Option.bind_some]
    rw [ofNat_eq (a := a) (by omega), ofNat_eq (a := b) (by omega), ofNat_eq (a := c) (by omega)]

theorem digit_mem (n : ℕ) : (digit n).isAlphanum ∨ digit n = '+' ∨ digit n = '/' ∨
    digit n = '=' := by
  have all : ∀ i < 64, (digits.getD i '=').isAlphanum ∨ digits.getD i '=' = '+' ∨
      digits.getD i '=' = '/' ∨ digits.getD i '=' = '=' := by decide +kernel
  exact all _ (Nat.mod_lt _ (by decide))

theorem mem_encode (bytes : List UInt8) :
    ∀ c ∈ encode bytes, c.isAlphanum ∨ c = '+' ∨ c = '/' ∨ c = '=' := by
  induction bytes using encode.induct with
  | case1 => exact forall_mem_nil _
  | case2 | case3 => simp [encode, digit_mem]
  | case4 a b c rest ih =>
    rw [encode, forall_mem_append]
    exact ⟨by simp [digit_mem], ih⟩

end Radix64
