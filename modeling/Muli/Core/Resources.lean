/-
**Amounts of CPU and memory, as they are read at execution.**

* `reads_parseCpuMillicores`, `reads_parseMemoryBytes` — **of the amounts that are accepted at
  submission, exactly these are read.**
-/

import Muli.Core.Job
import Muli.Core.Validation
import Muli.Data.Float64

namespace Muli

open List Option Float64

/-! ### The parsers -/

/-- Digits after a value, as long as it fits into 64 bits. -/
def parseDigits (value : ℕ) : List Char → Except String ℕ
  | [] => .ok value
  | c :: rest =>
    if !c.isDigit then .error "invalid digit found in string"
    else
      let next := 10 * value + (c.toNat - '0'.toNat)
      if next < 2 ^ 64 then parseDigits next rest
      else .error "number too large to fit in target type"

/-- The text of a number as `u64` parses it. -/
def parseU64 : List Char → Except String ℕ
  | [] => .error "cannot parse integer from empty string"
  | ['+'] => .error "invalid digit found in string"
  | '+' :: rest => parseDigits 0 rest
  | text => parseDigits 0 text

/-- The two messages of a failed `f64` parse. -/
def floatError (text : String) : String :=
  if text = "" then "cannot parse float from empty string" else "invalid float literal"

/-- 1000 cores. -/
def maxCpuMillicores : ℕ := 1000000

/-- 1 TiB. -/
def maxMemoryBytes : ℕ := 1099511627776

/-- What an amount is of: the words of the messages, and the most there may be. -/
structure Quantity where
  label : String
  title : String
  unit : String
  most : ℕ

def cpuQuantity : Quantity := ⟨"CPU", "CPU", "millicores", maxCpuMillicores⟩

def memoryQuantity : Quantity := ⟨"memory", "Memory", "bytes", maxMemoryBytes⟩

namespace Quantity

variable (quantity : Quantity)

def invalid (amount reason : String) : MuliError :=
  .internal ("Invalid " ++ quantity.label ++ " value '" ++ amount ++ "': " ++ reason)

def exceeds (amount : String) : MuliError :=
  .internal (quantity.title ++ " value '" ++ amount ++ "' exceeds maximum of " ++
    quantity.most.repr ++ " " ++ quantity.unit)

/-- A number that is not negative and not too large, without its fraction. -/
def safeF64ToU64 (value : Float64) (original : String) : Except MuliError ℕ :=
  if value.isNan || value.isInfinite || value.lt (.finite 0) || lt (.finite (2 ^ 64)) value then
    .error (quantity.invalid original "cannot convert to integer")
  else .ok value.toUInt64

/-- A decimal number times a multiplier, cut to a whole number. -/
def scaled (amount number : String) (multiplier : ℚ) : Except MuliError ℕ :=
  match parse number.toList with
  | none => .error (quantity.invalid amount (floatError number))
  | some value =>
    if value.lt (.finite 0) || value.isNan || value.isInfinite then
      .error (quantity.invalid amount "must be a positive finite number")
    else
      let result := value.mul (.finite multiplier)
      if lt (.finite quantity.most) result then .error (quantity.exceeds amount)
      else quantity.safeF64ToU64 result amount

/-- A whole number that is not above the maximum. -/
def whole (amount number : String) : Except MuliError ℕ :=
  match parseU64 number.toList with
  | .error reason => .error (quantity.invalid amount reason)
  | .ok n => if n > quantity.most then .error (quantity.exceeds amount) else .ok n

end Quantity

def stripSuffix (text suffix : String) : Option String :=
  (text.toList.dropSuffix? suffix.toList).map String.ofList

/-- A CPU value such as `1000m` or `0.5`, in millicores. -/
def parseCpuMillicores (cpu : String) : Except MuliError ℕ :=
  let cpu := trim cpu
  match stripSuffix cpu "m" with
  | some stripped => cpuQuantity.whole cpu stripped
  | none => do
    let millicores ← cpuQuantity.scaled cpu cpu 1000
    if millicores > maxCpuMillicores then .error (cpuQuantity.exceeds cpu) else .ok millicores

/-- In the order in which the source tries them. -/
def memoryUnits : List (String × ℚ) :=
  [("Gi", 1073741824), ("Mi", 1048576), ("Ki", 1024), ("G", 1000000000), ("M", 1000000),
    ("K", 1000)]

/-- The number before the first unit that fits, and the factor. -/
def stripMemoryUnit (mem : String) : Option (String × ℚ) :=
  memoryUnits.findSome? fun unit => (stripSuffix mem unit.1).map fun number => (number, unit.2)

/-- A memory value such as `512Mi` or `256M`, in bytes. -/
def parseMemoryBytes (mem : String) : Except MuliError ℕ :=
  let mem := trim mem
  match stripMemoryUnit mem with
  | some (number, multiplier) => memoryQuantity.scaled mem number multiplier
  | none => memoryQuantity.whole mem mem

/-- A million nano CPUs to a millicore. -/
def millicoresToNanoCpus (millicores : ℕ) : Except MuliError ℤ :=
  if millicores ≥ 2 ^ 63 then
    .error (.internal ("CPU millicores " ++ millicores.repr ++ " overflows i64"))
  else if millicores * 1000000 ≥ 2 ^ 63 then
    .error (.internal ("CPU millicores " ++ millicores.repr ++
      " overflows when converting to nano CPUs"))
  else .ok (millicores * 1000000)

def memoryBytesToDocker (bytes : ℕ) : Except MuliError ℤ :=
  if bytes ≥ 2 ^ 63 then .error (.internal ("Memory bytes " ++ bytes.repr ++ " overflows i64"))
  else .ok bytes

/-- The limits of a container. -/
structure DockerResourceLimits where
  nanoCpus : ℤ
  memoryBytes : ℤ
  cpuRequestMillicores : ℕ
  memoryRequestBytes : ℕ
deriving DecidableEq, Repr

namespace ResourceSpec

variable (resources : ResourceSpec)

def toDockerLimits : Except MuliError DockerResourceLimits := do
  let nanoCpus ← millicoresToNanoCpus (← parseCpuMillicores resources.cpuLimit)
  let memoryBytes ← memoryBytesToDocker (← parseMemoryBytes resources.memoryLimit)
  let cpuRequestMillicores ← parseCpuMillicores resources.cpuRequest
  let memoryRequestBytes ← parseMemoryBytes resources.memoryRequest
  pure ⟨nanoCpus, memoryBytes, cpuRequestMillicores, memoryRequestBytes⟩

/-- What `execute_job` reads of the specification: the amounts it allocates, and later the limits of
the container. -/
def read : Except MuliError (ℕ × ℕ × DockerResourceLimits) := do
  let cpuMillicores ← parseCpuMillicores resources.cpuLimit
  let memoryBytes ← parseMemoryBytes resources.memoryLimit
  let dockerLimits ← resources.toDockerLimits
  pure (cpuMillicores, memoryBytes, dockerLimits)

end ResourceSpec

/-! ### What the parsers read -/

/-- `parse::<f64>`, and whether the number is below zero. -/
def parsesNegative (text : String) : Option Bool :=
  (parse text.toList).map fun value => value.lt (.finite 0)

/-- A decimal number whose multiple is not above the maximum. -/
def Quantity.AtMost (quantity : Quantity) (multiplier : ℚ) (number : String) : Prop :=
  ∃ value : ℚ, parse number.toList = some (.finite value) ∧
    ¬ lt (.finite quantity.most) (mul (.finite value) (.finite multiplier))

def Quantity.Whole (quantity : Quantity) (number : String) : Prop :=
  ∃ n, parseU64 number.toList = .ok n ∧ n ≤ quantity.most

/-- The amount is read, and within its bound, exactly when it fits. -/
def Reads (result : Except MuliError ℕ) (most : ℕ) (fits : Prop) : Prop :=
  fits ∧ (∃ n ≤ most, result = .ok n) ∨ ¬ fits ∧ ∃ error, result = .error error

namespace Reads

variable {result : Except MuliError ℕ} {most : ℕ} {fits fits' : Prop}

section

variable (reads : Reads result most fits)
include reads

theorem congr (same : fits ↔ fits') : Reads result most fits' :=
  propext same ▸ reads

theorem checked (error : MuliError) :
    Reads (result >>= fun n => if n > most then .error error else .ok n) most fits := by
  rcases reads with ⟨holds, n, inBound, rfl⟩ | ⟨fails, stop, rfl⟩
  · exact .inl ⟨holds, n, inBound, if_neg (not_lt.mpr inBound)⟩
  · exact .inr ⟨fails, stop, rfl⟩

theorem ok_of_fits (holds : fits) : ∃ n ≤ most, result = .ok n :=
  (reads.resolve_right fun failed => failed.1 holds).2

theorem fits_of_ok (read : result = .ok n) : fits := by
  rcases reads with ⟨holds, -⟩ | ⟨-, stop, failed⟩
  · exact holds
  · rw [read] at failed
    cases failed

end

end Reads

namespace Quantity

variable {quantity : Quantity} {amount number : String} {multiplier : ℚ}

/-- **Whole units are read exactly when they are not too many.** -/
theorem reads_whole :
    Reads (quantity.whole amount number) quantity.most (quantity.Whole number) := by
  unfold whole Whole
  cases parseU64 number.toList with
  | error reason =>
    refine .inr ⟨?_, _, rfl⟩
    rintro ⟨n, ⟨⟩, -⟩
  | ok n =>
    by_cases much : n > quantity.most
    · refine .inr ⟨?_, _, if_pos much⟩
      rintro ⟨_, ⟨⟩, fits⟩
      exact absurd much (not_lt.mpr fits)
    · exact .inl ⟨⟨n, rfl, not_lt.mp much⟩, n, not_lt.mp much, if_neg much⟩

theorem safeF64ToU64_finite (inRange : quantity.most < 2 ^ 64) {value : ℚ} (nonneg : 0 ≤ value)
    (fits : value ≤ quantity.most) :
    ∃ n ≤ quantity.most, quantity.safeF64ToU64 (.finite value) amount = .ok n := by
  have small : ¬ (2 ^ 64 : ℚ) < value := by
    have : (quantity.most : ℚ) < 2 ^ 64 := by exact_mod_cast inRange
    linarith
  have floor : value.floor.toNat ≤ quantity.most := by
    have : value.floor ≤ (quantity.most : ℤ) := by
      exact_mod_cast (Int.cast_le (R := ℚ)).mp ((Rat.floor_le value).trans (by exact_mod_cast fits))
    omega
  refine ⟨_, ?_, if_neg ?_⟩
  · exact (min_le_left _ _).trans floor
  · simp [isNan, isInfinite, lt, nonneg, not_lt.mp small]

/-- **A number of units that is not negative is read exactly when it is finite and not too large.**
-/
theorem reads_scaled (quantity : Quantity) (amount : String) (inRange : quantity.most < 2 ^ 64)
    (positive : 0 ≤ multiplier) (notNegative : parsesNegative number = some false) :
    Reads (quantity.scaled amount number multiplier) quantity.most
    (quantity.AtMost multiplier number) := by
  obtain ⟨value, parsed, sign⟩ := map_eq_some_iff.mp notNegative
  unfold scaled AtMost
  rw [parsed]
  cases value with
  | nan => exact .inr ⟨by simp, _, rfl⟩
  | infinity negative =>
    exact .inr ⟨by simp, _, if_pos (by simp [isInfinite])⟩
  | finite value =>
    have nonneg : 0 ≤ value := not_lt.mp (of_decide_eq_false sign)
    have passes : ((finite value).lt (.finite 0) || (finite value).isNan ||
        (finite value).isInfinite) = false := by
      rw [sign]
      rfl
    simp only [passes, Bool.false_eq_true, if_false]
    obtain overflow | ⟨product, isNonneg, isProduct⟩ :=
      round_nonneg (mul_nonneg nonneg positive)
    · exact .inr ⟨by simp [mul, overflow, lt], _,
        if_pos (by simp [mul, overflow, lt])⟩
    · by_cases much : (quantity.most : ℚ) < product
      · exact .inr ⟨by simp [mul, isProduct, lt, much], _,
          if_pos (by simp [mul, isProduct, lt, much])⟩
      · refine .inl ⟨⟨value, rfl, by simp [mul, isProduct, lt, much]⟩, ?_⟩
        simpa [mul, isProduct, lt, much] using
          safeF64ToU64_finite inRange isNonneg (not_lt.mp much)

end Quantity

/-! ### Units -/

/-- The suffix that the validation finds. -/
def unitOf (amount : String) : Option String :=
  resourceSuffixes.find? fun suffix => suffix.toList.isSuffixOf amount.toList

/-- How an amount of CPU can be valid. -/
inductive CpuFits (amount : String) : Prop
  | millicores (hasUnit : unitOf amount = some "m") (fits : cpuQuantity.Whole (numberPart amount))
  | cores (noUnit : unitOf amount = none) (fits : cpuQuantity.AtMost 1000 amount)

/-- How an amount of memory can be valid. -/
inductive MemoryFits (amount : String) : Prop
  | bytes (noUnit : unitOf amount = none) (fits : memoryQuantity.Whole amount)
  | scaled (unit : String × ℚ) (isMemory : unit ∈ memoryUnits)
      (hasUnit : unitOf amount = some unit.1)
      (fits : memoryQuantity.AtMost unit.2 (numberPart amount))

section Units

variable {amount unit : String}

theorem unit_unique (isUnit : unit ∈ resourceSuffixes) (isUnit' : unit' ∈ resourceSuffixes)
    (ends : unit.toList <:+ amount.toList) (ends' : unit'.toList <:+ amount.toList) :
    unit = unit' := by
  exact Text.eq_of_endings (by decide) isUnit isUnit' ends ends'

theorem stripSuffix_eq_some :
    stripSuffix amount unit = some number ↔ amount.toList = number.toList ++ unit.toList := by
  unfold stripSuffix
  rw [map_eq_some_iff]
  constructor
  · grind [dropSuffix?_eq_some_iff, String.toList_ofList]
  · intro split
    exact ⟨number.toList, dropSuffix?_eq_some_iff.mpr ⟨_, split, BEq.rfl⟩, String.ofList_toList⟩

theorem numberPart_cases (amount : String) :
    (∃ unit ∈ resourceSuffixes, amount.toList = (numberPart amount).toList ++ unit.toList) ∨
      numberPart amount = amount ∧ ∀ unit ∈ resourceSuffixes, ¬ unit.toList <:+ amount.toList := by
  unfold numberPart
  dsimp only
  rw [head?_filterMap]
  cases found : resourceSuffixes.findSome? fun suffix =>
    amount.toList.dropSuffix? suffix.toList with
  | some text =>
    obtain ⟨unit, isUnit, stripped⟩ := exists_of_findSome?_eq_some found
    obtain ⟨suffix, split, same⟩ := dropSuffix?_eq_some_iff.mp stripped
    refine .inl ⟨unit, isUnit, ?_⟩
    rw [split, String.toList_ofList, eq_of_beq same]
  | none =>
    refine .inr ⟨rfl, ?_⟩
    rintro unit isUnit ⟨text, split⟩
    have kept := findSome?_eq_none_iff.mp found unit isUnit
    have stripped : amount.toList.dropSuffix? unit.toList = some text :=
      dropSuffix?_eq_some_iff.mpr ⟨_, split.symm, BEq.rfl⟩
    rw [kept] at stripped
    cases stripped

theorem unitOf_eq_some (found : unitOf amount = some unit) :
    unit ∈ resourceSuffixes ∧ amount.toList = (numberPart amount).toList ++ unit.toList := by
  have isUnit := mem_of_find?_eq_some found
  have ends : unit.toList <:+ amount.toList := by simpa using find?_some found
  refine ⟨isUnit, ?_⟩
  obtain ⟨unit', isUnit', split⟩ | ⟨-, without⟩ := numberPart_cases amount
  · rwa [unit_unique isUnit isUnit' ends ⟨_, split.symm⟩]
  · exact absurd ends (without unit isUnit)

theorem unitOf_eq_none (absent : unitOf amount = none) :
    numberPart amount = amount ∧ ∀ unit ∈ resourceSuffixes, ¬ unit.toList <:+ amount.toList := by
  have without : ∀ unit ∈ resourceSuffixes, ¬ unit.toList <:+ amount.toList := fun unit isUnit => by
    simpa using find?_eq_none.mp absent unit isUnit
  obtain ⟨unit, isUnit, split⟩ | plain := numberPart_cases amount
  · exact absurd ⟨_, split.symm⟩ (without unit isUnit)
  · exact plain

theorem not_numeric (isUnit : unit ∈ resourceSuffixes)
    (split : amount.toList = text ++ unit.toList) : ¬ ∀ c ∈ amount.toList, isNumeric c := by
  have letter : resourceSuffixes.all (fun unit => unit.toList.any fun c =>
      !isNumeric c) = true := by
    decide
  obtain ⟨c, mem, other⟩ := any_eq_true.mp (all_eq_true.mp letter unit isUnit)
  intro numeric
  have isNumeric : isNumeric c = true := by simp [*]
  rw [isNumeric] at other
  cases other

theorem isNumeric_of_parseU64 (parsed : parseU64 text = .ok n) : ∀ c ∈ text, isNumeric c := by
  have digits : ∀ (text : List Char) (value : ℕ), parseDigits value text = .ok n →
      ∀ c ∈ text, isNumeric c := by
    intro text
    induction text with
    | nil => exact fun _ _ c mem => absurd mem not_mem_nil
    | cons first rest ih =>
      intro value parsed
      rw [parseDigits] at parsed
      dsimp only at parsed
      split_ifs at parsed with digit
      refine forall_mem_cons.mpr ⟨?_, ih _ parsed⟩
      simp only [Bool.not_eq_true', Bool.not_eq_false] at digit
      unfold isNumeric
      rw [digit, Bool.true_or]
  unfold parseU64 at parsed
  split at parsed
  · cases parsed
  · cases parsed
  · exact forall_mem_cons.mpr ⟨rfl, digits _ 0 parsed⟩
  · exact digits _ 0 parsed

theorem Quantity.isNumeric_of_scaled {quantity : Quantity}
    (read : quantity.scaled amount number multiplier = .ok n) :
    ∀ c ∈ number.toList, isNumeric c := by
  unfold Quantity.scaled at read
  cases parsed : parse number.toList with
  | none =>
    rw [parsed] at read
    cases read
  | some value => exact isNumeric_of_parse parsed

end Units

/-! ### Accepted amounts -/

theorem parsesNegative_of_accepted
    (accepted : validateResourceSpec parsesNegative field value = .ok ()) :
    parsesNegative (numberPart (trim value)) = some false := by
  unfold validateResourceSpec at accepted
  split_ifs at accepted
  · cases accepted
  · cases accepted
  · cases sign : parsesNegative (numberPart (trim value)) with
    | none =>
      rw [sign] at accepted
      cases accepted
    | some negative =>
      rw [sign] at accepted
      cases negative with
      | true => cases accepted
      | false => rfl

/-- **An accepted amount of CPU is read exactly when it fits.** -/
theorem reads_parseCpuMillicores {field : String}
    (accepted : validateResourceSpec parsesNegative field cpu = .ok ()) :
    Reads (parseCpuMillicores cpu) maxCpuMillicores (CpuFits (trim cpu)) := by
  have notNegative := parsesNegative_of_accepted accepted
  have inList : "m" ∈ resourceSuffixes := by decide
  unfold parseCpuMillicores
  dsimp only
  cases hasUnit : unitOf (trim cpu) with
  | none =>
    obtain ⟨plain, without⟩ := unitOf_eq_none hasUnit
    have kept : stripSuffix (trim cpu) "m" = none := by
      refine eq_none_iff_forall_ne_some.mpr fun number stripped => ?_
      exact without "m" inList ⟨_, (stripSuffix_eq_some.mp stripped).symm⟩
    rw [plain] at notNegative
    rw [kept]
    refine ((cpuQuantity.reads_scaled (trim cpu) (by decide) (by decide) notNegative).checked
      _).congr ⟨.cores hasUnit, ?_⟩
    rintro (⟨milli, -⟩ | ⟨-, fits⟩)
    · rw [hasUnit] at milli
      cases milli
    · exact fits
  | some unit =>
    obtain ⟨isUnit, split⟩ := unitOf_eq_some hasUnit
    by_cases milli : unit = "m"
    · subst milli
      rw [stripSuffix_eq_some.mpr split]
      refine Quantity.reads_whole.congr ⟨.millicores hasUnit, ?_⟩
      rintro (⟨-, fits⟩ | ⟨none, -⟩)
      · exact fits
      · rw [hasUnit] at none
        cases none
    · have kept : stripSuffix (trim cpu) "m" = none := by
        refine eq_none_iff_forall_ne_some.mpr fun number stripped => milli ?_
        exact unit_unique isUnit inList ⟨_, split.symm⟩ ⟨_, (stripSuffix_eq_some.mp stripped).symm⟩
      rw [kept]
      have unfit : ¬ CpuFits (trim cpu) := by
        rintro (⟨isMilli, -⟩ | ⟨none, -⟩)
        · exact milli (some.inj (hasUnit.symm.trans isMilli))
        · rw [hasUnit] at none
          cases none
      refine .inr ⟨unfit, ?_⟩
      cases scaled : cpuQuantity.scaled (trim cpu) (trim cpu) 1000 with
      | error error => exact ⟨error, rfl⟩
      | ok n => exact absurd (Quantity.isNumeric_of_scaled scaled) (not_numeric isUnit split)

theorem stripMemoryUnit_eq_some (isUnit : unit ∈ memoryUnits)
    (split : amount.toList = number.toList ++ unit.1.toList) :
    stripMemoryUnit amount = some (number, unit.2) := by
  have inList : ∀ unit ∈ memoryUnits, unit.1 ∈ resourceSuffixes := by decide
  have once : ∀ unit ∈ memoryUnits, ∀ unit' ∈ memoryUnits, unit.1 = unit'.1 →
      unit = unit' := by decide
  cases found : stripMemoryUnit amount with
  | none =>
    have kept := findSome?_eq_none_iff.mp found unit isUnit
    rw [stripSuffix_eq_some.mpr split] at kept
    cases kept
  | some stripped =>
    obtain ⟨unit', isUnit', isStripped⟩ := exists_of_findSome?_eq_some found
    obtain ⟨number', isNumber', rfl⟩ := map_eq_some_iff.mp isStripped
    have split' := stripSuffix_eq_some.mp isNumber'
    obtain rfl : unit' = unit := once _ isUnit' _ isUnit
      (unit_unique (inList _ isUnit') (inList _ isUnit) ⟨_, split'.symm⟩ ⟨_, split.symm⟩)
    have same : number'.toList = number.toList := append_cancel_right (split'.symm.trans split)
    rw [String.toList_inj.mp same]

theorem stripMemoryUnit_eq_none (without : ∀ unit ∈ memoryUnits,
    ¬ unit.1.toList <:+ amount.toList) : stripMemoryUnit amount = none := by
  refine findSome?_eq_none_iff.mpr fun unit isUnit => ?_
  rw [map_eq_none_iff]
  refine eq_none_iff_forall_ne_some.mpr fun number stripped => without unit isUnit ?_
  exact ⟨_, (stripSuffix_eq_some.mp stripped).symm⟩

/-- **An accepted amount of memory is read exactly when it fits.** -/
theorem reads_parseMemoryBytes (accepted : validateResourceSpec parsesNegative field mem = .ok ()) :
    Reads (parseMemoryBytes mem) maxMemoryBytes (MemoryFits (trim mem)) := by
  have notNegative := parsesNegative_of_accepted accepted
  have inList : ∀ unit ∈ memoryUnits, unit.1 ∈ resourceSuffixes := by decide
  have positive : ∀ unit ∈ memoryUnits, 0 ≤ unit.2 := by decide
  unfold parseMemoryBytes
  dsimp only
  cases hasUnit : unitOf (trim mem) with
  | none =>
    obtain ⟨-, without⟩ := unitOf_eq_none hasUnit
    rw [stripMemoryUnit_eq_none fun unit isUnit => without _ (inList unit isUnit)]
    refine Quantity.reads_whole.congr ⟨.bytes hasUnit, ?_⟩
    rintro (⟨-, fits⟩ | ⟨unit, -, isUnit, -⟩)
    · exact fits
    · rw [hasUnit] at isUnit
      cases isUnit
  | some unit =>
    obtain ⟨isUnit, split⟩ := unitOf_eq_some hasUnit
    by_cases ofMemory : ∃ other ∈ memoryUnits, unit = other.1
    · obtain ⟨other, isMemory, rfl⟩ := ofMemory
      have stripped := stripMemoryUnit_eq_some isMemory split
      rw [stripped]
      refine (memoryQuantity.reads_scaled (trim mem) (by decide) (positive _ isMemory)
        notNegative).congr ⟨.scaled other isMemory hasUnit, ?_⟩
      rintro (⟨none, -⟩ | ⟨other', isMemory', hasUnit', fits⟩)
      · rw [hasUnit] at none
        cases none
      · rw [some.inj (hasUnit.symm.trans hasUnit')] at split
        have again := stripMemoryUnit_eq_some isMemory' split
        rwa [(Prod.mk.inj (some.inj (stripped.symm.trans again))).2]
    · have kept : stripMemoryUnit (trim mem) = none := by
        refine stripMemoryUnit_eq_none fun other isMemory ends => ofMemory ⟨other, isMemory, ?_⟩
        exact unit_unique isUnit (inList _ isMemory) ⟨_, split.symm⟩ ends
      have unfit : ¬ MemoryFits (trim mem) := by
        rintro (⟨none, -⟩ | ⟨other, isMemory, hasUnit', -⟩)
        · rw [hasUnit] at none
          cases none
        · exact ofMemory ⟨other, isMemory, some.inj (hasUnit.symm.trans hasUnit')⟩
      rw [kept]
      refine .inr ⟨unfit, ?_⟩
      cases read : memoryQuantity.whole (trim mem) (trim mem) with
      | error error => exact ⟨error, rfl⟩
      | ok n =>
        obtain ⟨_, parsed, -⟩ := Quantity.reads_whole.fits_of_ok read
        exact absurd (isNumeric_of_parseU64 parsed) (not_numeric isUnit split)

namespace ResourceSpec

/-- All four amounts are valid. -/
structure Fits (resources : ResourceSpec) : Prop where
  cpuLimit : CpuFits (trim resources.cpuLimit)
  memoryLimit : MemoryFits (trim resources.memoryLimit)
  cpuRequest : CpuFits (trim resources.cpuRequest)
  memoryRequest : MemoryFits (trim resources.memoryRequest)

/-- All four amounts pass the check of a submission. -/
structure Accepted (resources : ResourceSpec) : Prop where
  cpuRequest : validateResourceSpec parsesNegative "cpu_request" resources.cpuRequest = .ok ()
  cpuLimit : validateResourceSpec parsesNegative "cpu_limit" resources.cpuLimit = .ok ()
  memoryRequest : validateResourceSpec parsesNegative "memory_request"
    resources.memoryRequest = .ok ()
  memoryLimit : validateResourceSpec parsesNegative "memory_limit" resources.memoryLimit = .ok ()

theorem millicoresToNanoCpus_ok (inBound : n ≤ maxCpuMillicores) :
    millicoresToNanoCpus n = .ok (n * 1000000) := by
  unfold maxCpuMillicores at inBound
  unfold millicoresToNanoCpus
  rw [if_neg (by omega), if_neg (by omega)]

theorem memoryBytesToDocker_ok (inBound : n ≤ maxMemoryBytes) : memoryBytesToDocker n = .ok n := by
  unfold maxMemoryBytes at inBound
  exact if_neg (by omega)

/-- **An accepted specification is read exactly when its amounts fit.** -/
theorem Accepted.read_iff {resources : ResourceSpec} (accepted : resources.Accepted) :
    (∃ limits, resources.read = .ok limits) ↔ resources.Fits := by
  have cpuLimit := reads_parseCpuMillicores accepted.cpuLimit
  have memoryLimit := reads_parseMemoryBytes accepted.memoryLimit
  have cpuRequest := reads_parseCpuMillicores accepted.cpuRequest
  have memoryRequest := reads_parseMemoryBytes accepted.memoryRequest
  constructor
  · rintro ⟨limits, read⟩
    obtain ⟨cpu, isCpu, read⟩ := exists_of_bind_eq_ok read
    obtain ⟨memory, isMemory, read⟩ := exists_of_bind_eq_ok read
    obtain ⟨docker, isDocker, -⟩ := exists_of_bind_eq_ok read
    iterate 4 obtain ⟨_, -, isDocker⟩ := exists_of_bind_eq_ok isDocker
    obtain ⟨cpu', isCpu', isDocker⟩ := exists_of_bind_eq_ok isDocker
    obtain ⟨memory', isMemory', -⟩ := exists_of_bind_eq_ok isDocker
    exact ⟨cpuLimit.fits_of_ok isCpu, memoryLimit.fits_of_ok isMemory, cpuRequest.fits_of_ok isCpu',
      memoryRequest.fits_of_ok isMemory'⟩
  · intro fits
    obtain ⟨cpu, inBound, isCpu⟩ := cpuLimit.ok_of_fits fits.cpuLimit
    obtain ⟨memory, inBound', isMemory⟩ := memoryLimit.ok_of_fits fits.memoryLimit
    obtain ⟨cpu', -, isCpu'⟩ := cpuRequest.ok_of_fits fits.cpuRequest
    obtain ⟨memory', -, isMemory'⟩ := memoryRequest.ok_of_fits fits.memoryRequest
    have docker : resources.toDockerLimits = .ok ⟨cpu * 1000000, memory, cpu', memory'⟩ := by
      unfold toDockerLimits
      rw [isCpu, isMemory, isCpu', isMemory']
      show (millicoresToNanoCpus cpu >>= fun nanoCpus => memoryBytesToDocker memory >>=
        fun memoryBytes =>
        Except.ok (DockerResourceLimits.mk nanoCpus memoryBytes cpu' memory')) = _
      rw [millicoresToNanoCpus_ok inBound, memoryBytesToDocker_ok inBound']
      rfl
    refine ⟨(cpu, memory, ⟨cpu * 1000000, memory, cpu', memory'⟩), ?_⟩
    unfold read
    rw [isCpu, isMemory, docker]
    rfl

end ResourceSpec

end Muli
