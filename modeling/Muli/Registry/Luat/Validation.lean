/-
**Names and versions of Luat packages.**
-/

import Mathlib.Order.Defs.LinearOrder
import Mathlib.Tactic.Common

namespace Muli.Luat

/-! ### Names -/

inductive LuatValidationError where
  | invalidName (name : String)
  | invalidVersion (version : String)
deriving DecidableEq, Repr

def LuatValidationError.toString : LuatValidationError → String
  | invalidName name =>
    "invalid package name `" ++ name ++
      "`: expected @scope/name, each part matching [a-z0-9][a-z0-9._-]\x7b0,63\x7d"
  | invalidVersion version => "invalid version `" ++ version ++ "`: expected semver 2.0"

def isValidPart (part : String) : Bool :=
  match part.toList with
  | [] => false
  | first :: rest =>
    decide (part.utf8ByteSize ≤ 64) && (first.isLower || first.isDigit) &&
      rest.all fun c => c.isLower || c.isDigit || c == '.' || c == '_' || c == '-'

def fullName (scope name : String) : String := "@" ++ scope ++ "/" ++ name

def validateParts (scope name : String) : Except LuatValidationError Unit :=
  if isValidPart scope && isValidPart name then .ok ()
  else .error (.invalidName (fullName scope name))

/-! ### Versions -/

/-- Versions as the `semver` crate parses and orders them. -/
structure Semver where
  Version : Type
  parse : String → Option Version
  isPrerelease : Version → Bool
  /-- What `cmp_precedence` compares. -/
  Precedence : Type
  order : LinearOrder Precedence
  precedence : Version → Precedence

namespace Semver

variable (semver : Semver)

instance : LinearOrder semver.Precedence := semver.order

def parseVersion (version : String) : Except LuatValidationError semver.Version :=
  match semver.parse version with
  | some parsed => .ok parsed
  | none => .error (.invalidVersion version)

/-- Two versions denote the same release when they have equal precedence. -/
def sameRelease (a b : String) : Bool :=
  match semver.parse a, semver.parse b with
  | some a, some b => semver.precedence a = semver.precedence b
  | _, _ => a = b

variable {semver} {a b c : String}

theorem sameRelease_iff : semver.sameRelease a b ↔
    (semver.parse a).map semver.precedence = (semver.parse b).map semver.precedence ∧
      (semver.parse a = none → a = b) := by
  unfold sameRelease
  cases isA : semver.parse a with
  | none =>
    cases isB : semver.parse b with
    | none => simp
    | some second =>
      have different : a ≠ b := by grind
      simp [different]
  | some first =>
    cases isB : semver.parse b with
    | none =>
      have different : a ≠ b := by grind
      simp [different]
    | some second => simp

theorem sameRelease_refl (a : String) : semver.sameRelease a a :=
  sameRelease_iff.mpr ⟨rfl, fun _ => rfl⟩

end Semver

end Muli.Luat
