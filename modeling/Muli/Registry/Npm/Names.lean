/-
**Names of npm packages and of their directories.**

A scoped name `@scope/name` is kept in a directory in whose name two underscores stand for the
slash; the listing puts the slash back for every two underscores.

* `restoreName_iff` — **a name is restored exactly when it is `Unambiguous`**: it has no two
  underscores in a row and no underscore before a slash. `unambiguous_unescape` — what is restored
  always is.
-/

import Muli.Core.Validation

namespace Muli.Npm

open List Text String

/-! ### Checks -/

inductive NpmValidationError where
  | invalidPackageName (name : String)
  | invalidVersion (version : String)
deriving DecidableEq, Repr

def NpmValidationError.toString : NpmValidationError → String
  | invalidPackageName name => "invalid package name: " ++ name
  | invalidVersion version => "invalid version: " ++ version

def isNameChar (c : Char) : Bool := c.isLower || c.isDigit || c == '-' || c == '.' || c ==
  '_' || c == '~'

/-- The rules of the API for a package name. -/
def validatePackageName (name : String) : Except NpmValidationError Unit :=
  if name = "" ∨ name.utf8ByteSize > 214 then .error (.invalidPackageName name)
  else if name.toList.head? = some '@' then
    match splitFirst ['/'] name.toList with
    | none => .error (.invalidPackageName name)
    | some (scope, rest) =>
      if (ofList scope).utf8ByteSize < 2 ∨ rest = [] then .error (.invalidPackageName name)
      else .ok ()
  else if name.toList.head? = some '.' ∨ name.toList.head? = some '_' then
    .error (.invalidPackageName name)
  else if !name.toList.all isNameChar then .error (.invalidPackageName name)
  else .ok ()

def isPathComponent (text : List Char) : Bool :=
  !text.isEmpty && !decide (['.', '.'] <:+: text) && !text.contains '/' && !text.contains '\\' &&
    !text.contains '\x00'

/-- The rules of the storage: each component of the name is one of a path. -/
def validateNpmPackageName (name : String) : Bool :=
  match name.toList with
  | [] => false
  | '@' :: unprefixed =>
    match splitFirst ['/'] unprefixed with
    | none => false
    | some (scope, rest) => isPathComponent scope && isPathComponent rest
  | text => isPathComponent text

/-! ### Directories -/

/-- `replace('/', "__")`. -/
def escape (text : List Char) : List Char :=
  (replacing ['/'] (cons_ne_nil _ _) ['_', '_']).rewrite text

/-- `replace("__", "/")`. -/
def unescape (text : List Char) : List Char :=
  (replacing ['_', '_'] (cons_ne_nil _ _) ['/']).rewrite text

/-- The directory of a package, if its name is safe. -/
def packageDir (name : String) : Option String :=
  if validateNpmPackageName name then some (ofList (escape name.toList)) else none

/-- The name that the listing shows for a directory. -/
def restoreName (dir : String) : String := ofList (unescape dir.toList)

/-- What follows the last slash. -/
def baseName (text : String) : String :=
  match splitLast '/' text.toList with
  | some (_, after) => ofList after
  | none => text

/-- The file in which the tarball of a version is looked for. -/
def tarballFilename (package version : String) :
    String := baseName package ++ "-" ++ version ++ ".tgz"

/-! ### Names that are restored -/

/-- No two underscores in a row, and none before a slash. -/
def Unambiguous (text : List Char) : Prop := ¬ ['_', '_'] <:+: text ∧ ¬ ['_', '/'] <:+: text
deriving Decidable

@[simp] theorem escape_nil : escape [] = [] := rewrite_replacing_nil

@[simp] theorem unescape_nil : unescape [] = [] := rewrite_replacing_nil

theorem escape_slash (rest : List Char) : escape ('/' :: rest) = '_' :: '_' :: escape rest :=
  rewrite_replacing_append rest

theorem escape_cons (other : c ≠ '/') (rest : List Char) :
    escape (c :: rest) = c :: escape rest := by
  refine rewrite_replacing_cons fun starts => other ?_
  exact (cons_prefix_cons.mp starts).1.symm

theorem unescape_twice (rest : List Char) : unescape ('_' :: '_' :: rest) = '/' :: unescape rest :=
  rewrite_replacing_append rest

variable {rest : List Char}

theorem unescape_cons (single : c = '_' → rest.head? ≠ some '_') :
    unescape (c :: rest) = c :: unescape rest := by
  refine rewrite_replacing_cons fun starts => ?_
  obtain ⟨isFirst, later⟩ := cons_prefix_cons.mp starts
  obtain ⟨others, rfl⟩ := later
  exact single isFirst.symm rfl

theorem head?_escape (text : List Char) :
    (escape text).head? = some '_' ↔ text.head? = some '_' ∨ text.head? = some '/' := by
  cases text with
  | nil => simp
  | cons c rest =>
    by_cases slash : c = '/'
    · subst slash
      simp [escape_slash]
    · simp [escape_cons slash, slash]

variable {text : List Char}

theorem head?_unescape (other : text.head? ≠ some '_') : (unescape text).head? = text.head? := by
  cases text with
  | nil => simp
  | cons c rest =>
    rw [unescape_cons fun isFirst => absurd (congrArg some isFirst) other]
    rfl

theorem not_mem_escape (text : List Char) : '/' ∉ escape text := by
  induction text with
  | nil => simp
  | cons c rest ih =>
    by_cases slash : c = '/'
    · subst slash
      simp [escape_slash, ih]
    · simp [escape_cons slash, Ne.symm slash, ih]

theorem pair_prefix_cons : [a, b] <+: c :: rest ↔ c = a ∧ rest.head? = some b := by
  rw [cons_prefix_cons, eq_comm]
  refine and_congr_right fun _ => ?_
  cases rest with
  | nil => simp
  | cons d rest => simp [cons_prefix_cons, eq_comm]

theorem unambiguous_cons : Unambiguous (c :: rest) ↔
    (c = '_' → rest.head? ≠ some '_' ∧ rest.head? ≠ some '/') ∧ Unambiguous rest := by
  unfold Unambiguous
  rw [infix_cons_iff, infix_cons_iff, pair_prefix_cons, pair_prefix_cons]
  tauto

/-- **Unambiguous names are restored.** -/
theorem unescape_escape (unambiguous : Unambiguous text) : unescape (escape text) = text := by
  induction text with
  | nil => simp
  | cons c rest ih =>
    obtain ⟨atHead, inRest⟩ := unambiguous_cons.mp unambiguous
    by_cases slash : c = '/'
    · rw [slash, escape_slash, unescape_twice, ih inRest]
    · grind [escape_cons, unescape_cons, head?_escape]

/-- **What is restored from a directory is unambiguous.** -/
theorem unambiguous_unescape (noSlash : '/' ∉ text) : Unambiguous (unescape text) := by
  -- two characters go at a time where the underscores stand
  induction length : text.length using Nat.strong_induction_on generalizing text with
  | _ n ih =>
    cases text with
    | nil => exact ⟨by simp, by simp⟩
    | cons c rest =>
      rw [mem_cons, not_or] at noSlash
      by_cases twice : c = '_' ∧ rest.head? = some '_'
      · obtain ⟨rfl, isHead⟩ := twice
        obtain ⟨others, rfl⟩ := head?_eq_some_iff.mp isHead
        rw [unescape_twice]
        refine unambiguous_cons.mpr ⟨by simp, ih others.length ?_ ?_ rfl⟩
        · grind
        · exact fun mem => noSlash.2 (.tail _ mem)
      · rw [unescape_cons fun isFirst isHead => twice ⟨isFirst, isHead⟩]
        refine unambiguous_cons.mpr ⟨fun isFirst => ?_, ih rest.length ?_ noSlash.2 rfl⟩
        · grind [head?_unescape, mem_of_mem_head?]
        · rw [← length]
          simp

theorem escape_unescape (noSlash : '/' ∉ text) : escape (unescape text) = text := by
  induction length : text.length using Nat.strong_induction_on generalizing text with
  | _ n ih =>
    cases text with
    | nil => simp
    | cons c rest =>
      rw [mem_cons, not_or] at noSlash
      by_cases twice : c = '_' ∧ rest.head? = some '_'
      · obtain ⟨rfl, isHead⟩ := twice
        obtain ⟨others, rfl⟩ := head?_eq_some_iff.mp isHead
        have others_eq : escape (unescape others) = others := by grind
        rw [unescape_twice, escape_slash, others_eq]
      · grind [unescape_cons, escape_cons]

section

variable (isDir : packageDir name = some dir)
include isDir

theorem not_mem_packageDir : '/' ∉ dir.toList := by
  unfold packageDir at isDir
  split_ifs at isDir
  rw [← Option.some.inj isDir, toList_ofList]
  exact not_mem_escape _

/-- **A name is restored exactly when it is unambiguous.** -/
theorem restoreName_iff :
    restoreName dir = name ↔ Unambiguous name.toList := by
  unfold packageDir at isDir
  split_ifs at isDir
  cases isDir
  unfold restoreName
  rw [toList_ofList]
  constructor
  · intro restored
    rw [← restored, toList_ofList]
    exact unambiguous_unescape (not_mem_escape _)
  · intro unambiguous
    rw [unescape_escape unambiguous, ofList_toList]

/-- **Unambiguous names have directories of their own.** -/
theorem packageDir_injective
    (isDir' : packageDir name' = some dir) (unambiguous : Unambiguous name.toList)
    (unambiguous' : Unambiguous name'.toList) : name = name' :=
  ((restoreName_iff isDir).mpr unambiguous).symm.trans ((restoreName_iff isDir').mpr unambiguous')

theorem packageDir_restoreName
    (isDir' : packageDir (restoreName dir) = some dir') : dir' = dir := by
  unfold packageDir at isDir'
  split_ifs at isDir'
  rw [← Option.some.inj isDir', restoreName, toList_ofList,
    escape_unescape (not_mem_packageDir isDir), ofList_toList]

theorem restoreName_injective
    (isDir' : packageDir name' = some dir') (same : restoreName dir = restoreName dir') :
    dir = dir' := by
  have texts : unescape dir.toList = unescape dir'.toList := ofList_injective same
  have escaped := congrArg escape texts
  rw [escape_unescape (not_mem_packageDir isDir),
    escape_unescape (not_mem_packageDir isDir')] at escaped
  exact toList_injective escaped

end

end Muli.Npm
