/-
**Checks on the texts of a request.**

Each check accepts a value or answers with the field it is about and the reason.
-/

import Muli.Data.Text

namespace Muli

/-! ### Texts -/

/-- The characters `trim` removes. -/
def isWhiteSpace (c : Char) : Bool :=
  let n := c.toNat
  (9 ≤ n && n ≤ 13) || n == 0x20 || n == 0x85 || n == 0xA0 || n == 0x1680 ||
    (0x2000 ≤ n && n ≤ 0x200A) || n == 0x2028 || n == 0x2029 || n == 0x202F || n == 0x205F ||
    n == 0x3000

def trim (text : String) : String := String.ofList (Text.trim isWhiteSpace text.toList)

def isHexDigit (c : Char) : Bool :=
  c.isDigit || ('a' ≤ c && c ≤ 'f') || ('A' ≤ c && c ≤ 'F')

/-- What stands before and after the last `c`. -/
def splitLast (c : Char) (text : List Char) : Option (List Char × List Char) :=
  (Text.splitFirst [c] text.reverse).map fun parts => (parts.2.reverse, parts.1.reverse)

/-! ### The checks -/

/-- The field, and what is wrong with it. -/
structure ValidationError where
  field : String
  message : String
deriving DecidableEq, Repr

def ValidationError.toString (error : ValidationError) : String :=
  error.field ++ ": " ++ error.message

abbrev ValidationResult := Except ValidationError Unit

def err (field message : String) : ValidationResult := .error ⟨field, message⟩

theorem exists_of_bind_eq_ok {ε α β : Type} {first : Except ε α} {next : α → Except ε β}
    {result : β}
    (ok : (first >>= next) = .ok result) : ∃ value, first = .ok value ∧
    next value = .ok result := by
  cases first with
  | error e => cases ok
  | ok value => exact ⟨value, rfl, ok⟩

theorem forM_eq_ok {ε α : Type} {items : List α} {f : α → Except ε Unit} :
    items.forM f = .ok () ↔ ∀ item ∈ items, f item = .ok () := by
  induction items with
  | nil => simp [pure, Except.pure]
  | cons item items ih =>
    rw [List.forall_mem_cons, ← ih]
    show (f item >>= fun _ => items.forM f) = .ok () ↔ _
    cases f item <;> simp [bind, Except.bind]

/-- ASCII letters, digits, `-` and `_`. -/
def isIdentifierChar (c : Char) : Bool := c.isAlphanum || c == '-' || c == '_'

/-- An identifier of a tenant, project, workspace or deployment. -/
def validateIdentifier (field value : String) : ValidationResult :=
  if value = "" then err field "must not be empty"
  else if value.utf8ByteSize > 256 then err field "must be at most 256 characters"
  else if !value.toList.all isIdentifierChar then
    err field "must contain only alphanumeric characters, hyphens, and underscores"
  else .ok ()

/-- `sha256:` and 64 hexadecimal digits. -/
def validateDigest (field : String) (name digest : List Char) : ValidationResult :=
  if !"sha256:".toList.isPrefixOf digest || (String.ofList digest).utf8ByteSize != 71 then
    err field "invalid digest format, expected sha256:<64 hex chars>"
  else if !(digest.drop 7).all isHexDigit then err field "digest must contain only hex characters"
  else if name.isEmpty then err field "image name must not be empty"
  else .ok ()

/-- The first character that is not allowed is reported. -/
def validateChars (field part : String) (allowed : Char → Bool) (text : List Char) :
    ValidationResult :=
  match text.find? fun c => !allowed c with
  | some c => err field ("invalid character '" ++ String.singleton c ++ "' in " ++ part)
  | none => .ok ()

/-- The name and the tag of an image; a colon before a slash belongs to the registry. -/
def splitTag (image : List Char) : List Char × List Char :=
  match splitLast ':' image with
  | some (name, afterColon) => if '/' ∈ afterColon then (image, []) else (name, afterColon)
  | none => (image, [])

/-- A tag may be left out. -/
def validateTag (field : String) (tag : List Char) : ValidationResult :=
  if tag.isEmpty then .ok ()
  else if (String.ofList tag).utf8ByteSize > 128 then
    err field "tag must be at most 128 characters"
  else validateChars field "tag" (fun c => c.isAlphanum || c == '.' || c == '-' || c == '_') tag

/-- A name, and a tag or a digest. -/
def validateDockerImage (field value : String) : ValidationResult :=
  if value = "" then err field "must not be empty"
  else if value.utf8ByteSize > 512 then err field "must be at most 512 characters"
  else match Text.splitFirst ['@'] value.toList with
    | some (name, digest) => validateDigest field name digest
    | none =>
      let (name, tag) := splitTag value.toList
      if name.isEmpty then err field "image name must not be empty"
      else do
        validateChars field "image name"
          (fun c => c.isAlphanum || c == '/' || c == '.' || c == '-' || c == '_' || c == ':') name
        validateTag field tag

/-- A letter or an underscore, then letters, digits and underscores. -/
def validateEnvVarName (value : String) : ValidationResult :=
  match value.toList with
  | [] => err "env_var_name" "must not be empty"
  | first :: _ =>
    if value.utf8ByteSize > 256 then err "env_var_name" "must be at most 256 characters"
    else if !first.isAlpha && first != '_' then
      err "env_var_name" "must start with a letter or underscore"
    else if !value.toList.all fun c => c.isAlphanum || c == '_' then
      err "env_var_name" "must contain only alphanumeric characters and underscores"
    else .ok ()

def validateMaxLength (field value : String) (maxLen : ℕ) : ValidationResult :=
  if value.utf8ByteSize > maxLen then
    err field ("must be at most " ++ maxLen.repr ++ " characters")
  else .ok ()

def resourceSuffixes : List String := ["m", "Mi", "Gi", "Ki", "M", "G", "K"]

/-- The number of an amount: without the first unit that it ends with. -/
def numberPart (amount : String) : String :=
  let stripped := resourceSuffixes.filterMap fun suffix => amount.toList.dropSuffix? suffix.toList
  match stripped.head? with
  | some number => String.ofList number
  | none => amount

/-- An amount of a resource. `isNegative` is `parse::<f64>`, which may fail, and the comparison of
its value with zero. -/
def validateResourceSpec (isNegative : String → Option Bool) (field value : String) :
    ValidationResult :=
  if value = "" then err field "must not be empty"
  else if value.utf8ByteSize > 32 then err field "must be at most 32 characters"
  else match isNegative (numberPart (trim value)) with
    | some true => err field "must not be negative"
    | some false => .ok ()
    | none => err field "invalid resource format"

end Muli
