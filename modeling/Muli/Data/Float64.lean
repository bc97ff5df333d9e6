/-
**Double-precision numbers, and the decimal texts that are read into them.**

A finite number is the rational that it stands for; zero has no sign here, since neither an order
nor a product by a positive number shows it.

* `Float64.round` — the nearest number of the format, ties to even; `round_nonneg` — a number that
  is not negative stays so.
* `Float64.parse` — a sign, then digits with a point and an exponent, or the name of infinity or of
  "not a number". `isNumeric_of_parse` — the characters that such a text may have.
-/

import Mathlib.Algebra.Order.Floor.Ring
import Mathlib.Algebra.Order.Ring.Rat
import Mathlib.Data.Rat.Floor
import Mathlib.Tactic.Linarith
import Mathlib.Tactic.Positivity

inductive Float64 where
  | nan
  | infinity (negative : Bool)
  | finite (value : ℚ)
deriving DecidableEq, Repr

namespace Float64

open List

/-! ### Rounding -/

def power (base : ℕ) (exponent : ℤ) : ℚ :=
  if 0 ≤ exponent then ((base ^ exponent.toNat : ℕ) : ℚ)
    else 1 / ((base ^ (-exponent).toNat : ℕ) : ℚ)

theorem power_nonneg (base : ℕ) (exponent : ℤ) : 0 ≤ power base exponent := by
  unfold power
  split_ifs <;> positivity

/-- The exponent of the leading binary digit of a positive number. -/
def leadingExponent (q : ℚ) : ℤ :=
  let guess : ℤ := (Nat.log2 q.num.toNat : ℤ) - Nat.log2 q.den
  if power 2 guess ≤ q then guess else guess - 1

/-- The nearest integer, the even one of two. -/
def nearest (q : ℚ) : ℤ :=
  let below := q.floor
  if q - below < 1 / 2 ∨ q - below = 1 / 2 ∧ below % 2 = 0 then below else below + 1

/-- **The nearest number of the format**: 53 binary digits, the last of them at least `2 ^ (-1074)`.
-/
def round (q : ℚ) : Float64 :=
  let unit := power 2 (max (leadingExponent |q| - 52) (-1074))
  let magnitude := nearest (|q| / unit) * unit
  if power 2 1024 ≤ magnitude then infinity (q < 0)
  else finite (if q < 0 then -magnitude else magnitude)

theorem nearest_nonneg {q : ℚ} (nonneg : 0 ≤ q) : 0 ≤ nearest q := by
  have floor : 0 ≤ q.floor := Rat.le_floor_iff.mpr (by exact_mod_cast nonneg)
  unfold nearest
  dsimp only
  split_ifs
  · exact floor
  · omega

/-! ### Order, sum and product -/

def isNan : Float64 → Bool
  | nan => true
  | _ => false

def isInfinite : Float64 → Bool
  | infinity _ => true
  | _ => false

/-- The order; nothing is less than "not a number", and it is less than nothing. -/
def lt : Float64 → Float64 → Bool
  | finite a, finite b => a < b
  | finite _, infinity negative => !negative
  | infinity negative, finite _ => negative
  | infinity negative, infinity negative' => negative && !negative'
  | nan, _ | _, nan => false

def add : Float64 → Float64 → Float64
  | finite a, finite b => round (a + b)
  | infinity negative, finite _ | finite _, infinity negative => infinity negative
  | infinity negative, infinity negative' => if negative = negative' then infinity negative else nan
  | nan, _ | _, nan => nan

def mul : Float64 → Float64 → Float64
  | finite a, finite b => round (a * b)
  | infinity negative, finite a | finite a, infinity negative =>
    if a = 0 then nan else infinity (negative != decide (a < 0))
  | infinity negative, infinity negative' => infinity (negative != negative')
  | nan, _ | _, nan => nan

/-- The cast to an unsigned 64-bit number, which saturates. -/
def toUInt64 : Float64 → ℕ
  | nan | infinity true => 0
  | infinity false => 2 ^ 64 - 1
  | finite value => min value.floor.toNat (2 ^ 64 - 1)

/-- **A number that is not negative is rounded to one that is not.** -/
theorem round_nonneg {q : ℚ} (nonneg : 0 ≤ q) :
    round q = infinity false ∨ ∃ value, 0 ≤ value ∧ round q = finite value := by
  have positive : ¬ q < 0 := not_lt.mpr nonneg
  have isNonneg : 0 ≤ (nearest (|q| / power 2 (max (leadingExponent |q| - 52) (-1074))) : ℚ) *
      power 2 (max (leadingExponent |q| - 52) (-1074)) := by
    refine mul_nonneg ?_ (power_nonneg _ _)
    exact_mod_cast nearest_nonneg (div_nonneg (abs_nonneg q) (power_nonneg _ _))
  unfold round
  dsimp only
  split_ifs with overflow
  · exact .inl (congrArg infinity (decide_eq_false positive))
  · exact .inr ⟨_, isNonneg, rfl⟩

/-! ### Decimal texts -/

def digits (text : List Char) : ℕ := text.foldl (fun n c => 10 * n + (c.toNat - '0'.toNat)) 0

def signed {α : Type} [Neg α] (negative : Bool) (a : α) : α := if negative then -a else a

def splitSign : List Char → Bool × List Char
  | '-' :: rest => (true, rest)
  | '+' :: rest => (false, rest)
  | text => (false, text)

def parseExponent : List Char → Option ℤ
  | [] => some 0
  | c :: rest =>
    if c = 'e' ∨ c = 'E' then
      let (negative, text) := splitSign rest
      if text = [] ∨ ¬ text.all Char.isDigit then none
      else some (signed negative (digits text))
    else none

/-- The digits after the point, which may be absent, and what follows them. -/
def splitFraction : List Char → List Char × List Char
  | '.' :: rest => rest.span Char.isDigit
  | text => ([], text)

def parseNumber (text : List Char) : Option ℚ :=
  let (whole, rest) := text.span Char.isDigit
  let (fraction, rest) := splitFraction rest
  if whole = [] ∧ fraction = [] then none
  else (parseExponent rest).map fun exponent =>
    (digits (whole ++ fraction) : ℚ) * power 10 (exponent - fraction.length)

/-- **The number that a text writes.** -/
def parse (text : List Char) : Option Float64 :=
  let (negative, body) := splitSign text
  let name := String.ofList (body.map Char.toLower)
  if name = "nan" then some nan
  else if name = "inf" ∨ name = "infinity" then some (infinity negative)
  else (parseNumber body).map fun q => round (signed negative q)

/-! ### The characters of numbers -/

/-- Digits, signs, the point, and the letters of exponents and names. -/
def isNumeric (c : Char) : Bool := c.isDigit || "+-.einftya".toList.contains c.toLower

variable {text : List Char}

theorem isNumeric_of_span
    (rest : ∀ c ∈ (text.span Char.isDigit).2, isNumeric c) : ∀ c ∈ text, isNumeric c := by
  intro c mem
  rw [span_eq_takeWhile_dropWhile] at rest
  rw [← takeWhile_append_dropWhile (p := Char.isDigit) (l := text), mem_append] at mem
  rcases mem with digit | later
  · unfold isNumeric
    rw [all_eq_true.mp all_takeWhile c digit, Bool.true_or]
  · exact rest c later

theorem isNumeric_of_splitSign (rest : ∀ c ∈ (splitSign text).2, isNumeric c) :
    ∀ c ∈ text, isNumeric c := by
  unfold splitSign at rest
  split at rest
  · exact forall_mem_cons.mpr ⟨rfl, rest⟩
  · exact forall_mem_cons.mpr ⟨rfl, rest⟩
  · exact rest

theorem isNumeric_of_parseExponent (parsed : parseExponent text = some exponent) :
    ∀ c ∈ text, isNumeric c := by
  cases text with
  | nil => exact fun c mem => absurd mem not_mem_nil
  | cons first rest =>
    rw [parseExponent] at parsed
    dsimp only at parsed
    split_ifs at parsed with letter bad
    rw [not_or, not_not] at bad
    refine forall_mem_cons.mpr ⟨?_, isNumeric_of_splitSign fun c mem => ?_⟩
    · rcases letter with rfl | rfl <;> rfl
    · unfold isNumeric
      rw [all_eq_true.mp bad.2 c mem, Bool.true_or]

theorem isNumeric_of_parseNumber {q : ℚ} (parsed : parseNumber text = some q) :
    ∀ c ∈ text, isNumeric c := by
  unfold parseNumber at parsed
  dsimp only at parsed
  split_ifs at parsed
  obtain ⟨exponent, isExponent, -⟩ := Option.map_eq_some_iff.mp parsed
  have after := isNumeric_of_parseExponent isExponent
  refine isNumeric_of_span ?_
  unfold splitFraction at after
  split at after
  next rest isRest =>
    rw [isRest]
    exact forall_mem_cons.mpr ⟨rfl, isNumeric_of_span after⟩
  next => exact after

/-- **What is read as a number has only the characters of numbers.** -/
theorem isNumeric_of_parse (parsed : parse text = some number) : ∀ c ∈ text, isNumeric c := by
  refine isNumeric_of_splitSign ?_
  -- a name is compared in lower case
  have named : ∀ name : String, name.toList.all (fun c => "+-.einftya".toList.contains c) = true →
      String.ofList ((splitSign text).2.map Char.toLower) = name →
      ∀ c ∈ (splitSign text).2, isNumeric c := by
    intro name letters isName c mem
    have inName : c.toLower ∈ name.toList := by
      rw [← isName, String.toList_ofList]
      exact mem_map_of_mem mem
    unfold isNumeric
    rw [all_eq_true.mp letters _ inName, Bool.or_true]
  unfold parse at parsed
  dsimp only at parsed
  split_ifs at parsed with isNan isInfinity
  · exact named "nan" (by decide) isNan
  · rcases isInfinity with short | long
    · exact named "inf" (by decide) short
    · exact named "infinity" (by decide) long
  · grind [Option.map_eq_some_iff, isNumeric_of_parseNumber]

end Float64
