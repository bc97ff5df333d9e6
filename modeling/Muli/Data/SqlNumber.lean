/-
**The numbers of SQLite.**

A number is a signed 64-bit integer or a double. An integer sum that does not fit is computed again
in double precision, and a double that a column of integer affinity can hold exactly is stored as an
integer.
-/

import Muli.Data.Float64

/-- A value of storage class `INTEGER` or `REAL`. -/
inductive SqlNumber where
  | integer (value : Int64)
  | real (value : Float64)
deriving DecidableEq

namespace SqlNumber

def toReal : SqlNumber → Float64
  | integer value => Float64.round value.toInt
  | real value => value

/-- The number is one of the signed 64-bit integers. -/
def Fits (n : ℤ) : Prop := -2 ^ 63 ≤ n ∧ n < 2 ^ 63
deriving Decidable

def add : SqlNumber → SqlNumber → SqlNumber
  | integer a, integer b =>
    if Fits (a.toInt + b.toInt) then integer (a + b)
    else real ((integer a).toReal.add (integer b).toReal)
  | a, b => real (a.toReal.add b.toReal)

/-- The operator `<=`; an integer and a double are compared exactly. -/
def le : SqlNumber → SqlNumber → Bool
  | integer a, integer b => a ≤ b
  | integer a, real b => !b.lt (.finite a.toInt)
  | real a, integer b => !(Float64.finite b.toInt).lt a
  | real a, real b => !b.lt a

def max (a b : SqlNumber) : SqlNumber := if b.le a then a else b

/-- The value as a column of integer affinity keeps it. -/
def stored : SqlNumber → SqlNumber
  | real (.finite value) =>
    if value.den = 1 ∧ -2 ^ 63 < value.num ∧ value.num < 2 ^ 63 - 1 then
      integer (Int64.ofInt value.num)
    else real (.finite value)
  | value => value

/-- Only an integer can be read as an `i64`. -/
def asI64 : SqlNumber → Option Int64
  | integer value => some value
  | real _ => none

/-- **A sum that fits is the sum.** -/
theorem add_integer {a b : Int64} (fits : Fits (a.toInt + b.toInt)) :
    (integer a).add (integer b) = integer (a + b) :=
  if_pos fits

end SqlNumber
