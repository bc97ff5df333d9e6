/-
**Names, publish requests and index files of the cargo registry.**

* `parsePublishBody` — the two parts of a publish request with their lengths;
  `parsePublishBody_exact` — **a request is accepted exactly if it has this format, and read back.**
-/

import Mathlib.Data.List.Infix
import Mathlib.Data.String.Basic
import Muli.Registry.Quota

namespace Muli.Cargo

open List

/-! ### Names and paths -/

def isCrateChar (c : Char) : Bool := c.isAlphanum || c == '-' || c == '_'

/-- A letter, then letters, digits, `-` and `_`, at most 64 of them. -/
def validateCrateName (name : String) : Bool :=
  match name.toList with
  | [] => false
  | first :: rest => name.utf8ByteSize ≤ 64 && first.isAlpha && (first :: rest).all isCrateChar

def toLowercase (name : String) : List Char := name.toList.map Char.toLower

def indexPrefix (name : String) : List Char :=
  let lower := toLowercase name
  match lower.length with
  | 1 => ['1'] ++ '/' :: lower
  | 2 => ['2'] ++ '/' :: lower
  | 3 => ['3', '/'] ++ lower.take 1 ++ '/' :: lower
  | _ => lower.take 2 ++ ['/'] ++ (lower.drop 2).take 2 ++ '/' :: lower

def crateFile (name version : String) : List Char :=
  name.toList ++ '/' :: (name.toList ++ ['-'] ++ version.toList ++ ".crate".toList)

def validatePathComponent (text : String) : Bool :=
  !text.toList.isEmpty && !decide (['.', '.'] <:+: text.toList) && !text.toList.contains '/' &&
    !text.toList.contains '\\' && !text.toList.contains '\x00'

theorem all_of_validateCrateName (valid : validateCrateName name) :
    name.toList ≠ [] ∧ ∀ c ∈ name.toList, isCrateChar c := by
  unfold validateCrateName at valid
  cases isText : name.toList with
  | nil =>
    rw [isText] at valid
    cases valid
  | cons first rest => simp_all

theorem validatePathComponent_of_crateName (valid : validateCrateName name) :
    validatePathComponent name := by
  obtain ⟨nonempty, chars⟩ := all_of_validateCrateName valid
  have without : ∀ c, isCrateChar c = false → c ∉ name.toList := by grind
  have noDots : ¬ ['.', '.'] <:+: name.toList := by
    intro dots
    exact without '.' (by decide) (dots.subset mem_cons_self)
  simp [validatePathComponent, nonempty, noDots, without '/' (by decide), without '\\' (by decide),
    without '\x00' (by decide)]

section Paths

variable {name name' : String}

section

variable (valid : validateCrateName name)
include valid

theorem slash_not_mem : '/' ∉ name.toList := by
  intro mem
  have isChar := (all_of_validateCrateName valid).2 '/' mem
  exact absurd isChar (by decide)

theorem slash_not_mem_lower : '/' ∉ toLowercase name := by
  intro mem
  obtain ⟨c, isChar, isSlash⟩ := mem_map.mp mem
  unfold Char.toLower at isSlash
  split_ifs at isSlash with upper
  · have code : c.val + ('a'.val - 'A'.val) = '/'.val := congrArg Char.val isSlash
    grind
  · rw [isSlash] at isChar
    exact slash_not_mem valid isChar

omit valid in
theorem eq_of_append_slash (noSlash : '/' ∉ base) (noSlash' : '/' ∉ base')
    (same : dir ++ '/' :: base = dir' ++ '/' :: base') : base = base' := by
  have after : ∀ dir base : List Char, '/' ∉ base →
      ((dir ++ '/' :: base).reverse.takeWhile fun c => c ≠ '/') = base.reverse := by
    intro dir base noSlash
    rw [reverse_append, reverse_cons, append_assoc, takeWhile_append_of_pos]
    · simp
    · intro c mem
      have other : c ≠ '/' := by grind
      simpa using other
  have sameReverse := after dir base noSlash
  rw [same, after dir' base' noSlash'] at sameReverse
  exact (reverse_injective sameReverse).symm

omit valid in
theorem indexPrefix_eq (name : String) :
    ∃ dir, indexPrefix name = dir ++ '/' :: toLowercase name := by
  unfold indexPrefix
  dsimp only
  split <;> exact ⟨_, rfl⟩

/-- **Two crates share the index file exactly if their names are alike in lower case.** -/
theorem indexPrefix_eq_iff (valid' : validateCrateName name') :
    indexPrefix name = indexPrefix name' ↔ toLowercase name = toLowercase name' := by
  constructor
  · intro same
    obtain ⟨dir, isPath⟩ := indexPrefix_eq name
    obtain ⟨dir', isPath'⟩ := indexPrefix_eq name'
    rw [isPath, isPath'] at same
    exact eq_of_append_slash (slash_not_mem_lower valid) (slash_not_mem_lower valid') same
  · intro same
    unfold indexPrefix
    rw [same]

/-- **A crate file belongs to one crate and one version.** -/
theorem crateFile_injective (valid' : validateCrateName name')
    (same : crateFile name version = crateFile name' version') :
    name = name' ∧ version = version' := by
  unfold crateFile at same
  have before : ∀ (dir rest : List Char), '/' ∉ dir →
      (dir ++ '/' :: rest).takeWhile (fun c => c ≠ '/') = dir := by
    intro dir rest noSlash
    rw [takeWhile_append_of_pos]
    · simp
    · intro c mem
      have other : c ≠ '/' := by
        rintro rfl
        exact noSlash mem
      simpa using other
  have sameName : name.toList = name'.toList := by
    rw [← before name.toList _ (slash_not_mem valid), same, before _ _ (slash_not_mem valid')]
  obtain rfl := String.toList_injective sameName
  refine ⟨rfl, String.toList_injective ?_⟩
  simpa using same

end

end Paths

/-! ### Publish requests -/

structure CrateDependency where
  name : String
  req : String
  features : List String := []
  optional : Bool := false
  defaultFeatures : Bool := true
  target : Option String := none
  kind : String := "normal"
  registry : Option String := none
  package : Option String := none
deriving DecidableEq, Repr

structure CrateMetadata where
  name : String
  version : String
  deps : List CrateDependency := []
  features : List (String × List String) := []
  links : Option String := none
deriving DecidableEq, Repr

structure ParsedPublish where
  metadata : CrateMetadata
  crateData : Bytes
deriving DecidableEq, Repr

def fromLeBytes : Bytes → ℕ
  | [] => 0
  | byte :: rest => byte.toNat + 256 * fromLeBytes rest

def maxJsonLen : ℕ := 10 * 1024 * 1024

/-- The length and the bytes of the metadata, then those of the crate file. -/
def parsePublishBody (parseMetadata : Bytes → Except String CrateMetadata) (body : Bytes) :
    Except String ParsedPublish :=
  if body.length < 4 then .error "body too short for JSON length"
  else
    let jsonLen := fromLeBytes (body.take 4)
    if maxJsonLen < jsonLen then
      .error ("JSON metadata too large: " ++ jsonLen.repr ++ " bytes (max " ++
        maxJsonLen.repr ++ ")")
    else if body.length < 4 + jsonLen + 4 then
      .error "body too short for JSON metadata + crate length"
    else
      match parseMetadata ((body.drop 4).take jsonLen) with
      | .error error => .error ("invalid JSON metadata: " ++ error)
      | .ok metadata =>
        let crateLen := fromLeBytes ((body.drop (4 + jsonLen)).take 4)
        let crate := body.drop (4 + jsonLen + 4)
        if crate.length < crateLen then
          .error ("body too short for .crate data: expected " ++ crateLen.repr ++ " bytes, got " ++
            crate.length.repr)
        else .ok ⟨metadata, crate.take crateLen⟩

def toLeBytes (n : ℕ) : Bytes :=
  [.ofNat n, .ofNat (n / 256), .ofNat (n / 256 / 256), .ofNat (n / 256 / 256 / 256)]

theorem fromLeBytes_toLeBytes (inRange : n < 2 ^ 32) : fromLeBytes (toLeBytes n) = n := by
  simp only [toLeBytes, fromLeBytes, UInt8.toNat_ofNat']
  omega

def encodePublish (json crate : Bytes) : Bytes :=
  toLeBytes json.length ++ json ++ toLeBytes crate.length ++ crate

/-- A length in four bytes and as many bytes, twice, and then anything. -/
def Frames (body json crate : Bytes) : Prop :=
  ∃ first second rest, body = first ++ (json ++ (second ++ (crate ++ rest))) ∧ first.length = 4 ∧
    second.length = 4 ∧ fromLeBytes first = json.length ∧ fromLeBytes second = crate.length

/-- The ranges of a body that are read, each after the check of its end. -/
def readRanges (body : Bytes) : List (ℕ × ℕ) :=
  let jsonEnd := 4 + fromLeBytes (body.take 4)
  let crateEnd := jsonEnd + 4 + fromLeBytes ((body.drop jsonEnd).take 4)
  if body.length < 4 then []
  else if maxJsonLen < fromLeBytes (body.take 4) ∨ body.length < jsonEnd + 4 then [(0, 4)]
  else [(0, 4), (4, jsonEnd), (jsonEnd, jsonEnd + 4)] ++
    if body.length < crateEnd then [] else [(jsonEnd + 4, crateEnd)]

def slice (body : Bytes) (range : ℕ × ℕ) : Bytes := (body.take range.2).drop range.1

/-- **Nothing else is read**: a body of the same length with the same bytes in these ranges has the
same result. -/
theorem parsePublishBody_of_ranges {other : Bytes} (sameLength : other.length = body.length)
    (same : ∀ range ∈ readRanges body, slice other range = slice body range) :
    parsePublishBody parseMetadata other = parsePublishBody parseMetadata body := by
  unfold parsePublishBody
  unfold readRanges at same
  by_cases short : body.length < 4
  · rw [if_pos short, if_pos (sameLength ▸ short)]
  have first : other.take 4 = body.take 4 := by
    refine same (0, 4) ?_
    rw [if_neg short]
    split_ifs <;> simp
  rw [if_neg short, if_neg (sameLength ▸ short), first]
  dsimp only
  by_cases large : maxJsonLen < fromLeBytes (body.take 4)
  · rw [if_pos large, if_pos large]
  rw [if_neg large, if_neg large, sameLength]
  by_cases shorter : body.length < 4 + fromLeBytes (body.take 4) + 4
  · rw [if_pos shorter, if_pos shorter]
  rw [if_neg shorter, if_neg shorter]
  dsimp only at same
  rw [if_neg short, if_neg (not_or.mpr ⟨large, shorter⟩)] at same
  have json : (other.drop 4).take (fromLeBytes (body.take 4)) =
      (body.drop 4).take (fromLeBytes (body.take 4)) := by
    rw [take_drop, take_drop]
    exact same (4, _) (by simp)
  have second : (other.drop (4 + fromLeBytes (body.take 4))).take 4 =
      (body.drop (4 + fromLeBytes (body.take 4))).take 4 := by
    rw [take_drop, take_drop]
    exact same (_, _) (by simp)
  rw [json, second]
  generalize fromLeBytes ((body.drop (4 + fromLeBytes (body.take 4))).take 4) = crateLen at same
  cases parseMetadata ((body.drop 4).take (fromLeBytes (body.take 4))) with
  | error error => rfl
  | ok metadata =>
    dsimp only
    rw [length_drop, length_drop, sameLength]
    split_ifs with cut
    · rfl
    · have isRange : ¬ body.length < 4 + fromLeBytes (body.take 4) + 4 + crateLen := by omega
      rw [take_drop, take_drop]
      exact congrArg (fun crate => Except.ok (ParsedPublish.mk metadata crate))
        (same (_, _) (by simp [isRange]))

theorem frames_encodePublish (inRange : json.length < 2 ^ 32)
    (crateInRange : crate.length < 2 ^ 32) : Frames (encodePublish json crate) json crate :=
  ⟨_, _, [], by simp [encodePublish], rfl, rfl, fromLeBytes_toLeBytes inRange,
    fromLeBytes_toLeBytes crateInRange⟩

theorem parsePublishBody_of_frames (frames : Frames body json crate)
    (inRange : json.length ≤ maxJsonLen) (parsed : parseMetadata json = .ok metadata) :
    parsePublishBody parseMetadata body = .ok ⟨metadata, crate⟩ := by
  obtain ⟨first, second, rest, rfl, isFirst, isSecond, jsonLen, crateLen⟩ := frames
  have atLength : (first ++ (json ++ (second ++ (crate ++ rest)))).drop (4 + json.length) =
      second ++ (crate ++ rest) := by
    rw [← drop_drop, drop_left' isFirst, drop_left]
  have length : (first ++ (json ++ (second ++ (crate ++ rest)))).length =
      4 + json.length + 4 + crate.length + rest.length := by
    simp only [length_append, isFirst, isSecond]
    omega
  unfold parsePublishBody
  rw [if_neg (by omega), take_left' isFirst, jsonLen, if_neg (by omega), if_neg (by omega),
    drop_left' isFirst, take_left, parsed]
  dsimp only
  rw [← drop_drop, atLength, take_left' isSecond, crateLen, drop_left' isSecond, if_neg (by simp),
    take_left]

theorem frames_of_parsePublishBody
    (parsed : parsePublishBody parseMetadata body = .ok ⟨metadata, crate⟩) :
    ∃ json, Frames body json crate ∧ json.length ≤ maxJsonLen ∧
    parseMetadata json = .ok metadata := by
  simp only [parsePublishBody] at parsed
  generalize jsonLen : fromLeBytes (body.take 4) = json at parsed
  generalize crateLen : fromLeBytes ((body.drop (4 + json)).take 4) = length at parsed
  cases isParsed : parseMetadata ((body.drop 4).take json) with
  | error error =>
    rw [isParsed] at parsed
    split_ifs at parsed
  | ok metadata =>
    rw [isParsed] at parsed
    split_ifs at parsed with short large shorter cut
    obtain ⟨rfl, rfl⟩ := ParsedPublish.mk.inj (Except.ok.inj parsed)
    rw [length_drop] at cut
    refine ⟨_, ⟨_, _, (body.drop (4 + json + 4)).drop length, ?_, ?_, ?_, jsonLen.trans ?_,
      crateLen.trans ?_⟩, ?_, isParsed⟩
    · simp only [← drop_drop, take_append_drop]
    all_goals
      simp only [length_take, length_drop]
      omega

/-- **A body is read within its bounds, and accepted exactly if it has the format with metadata of
at most ten megabytes**; an encoded request is read back. -/
theorem parsePublishBody_exact (parseMetadata : Bytes → Except String CrateMetadata)
    (body : Bytes) : (∀ range ∈ readRanges body, range.1 ≤ range.2 ∧ range.2 ≤ body.length) ∧
    (∀ other, other.length = body.length →
      (∀ range ∈ readRanges body, slice other range = slice body range) →
        parsePublishBody parseMetadata other = parsePublishBody parseMetadata body) ∧
    (∀ metadata crate, parsePublishBody parseMetadata body = .ok ⟨metadata, crate⟩ ↔
      ∃ json, Frames body json crate ∧ json.length ≤ maxJsonLen ∧
      parseMetadata json = .ok metadata) ∧
    ∀ json crate metadata, json.length ≤ maxJsonLen → crate.length < 2 ^ 32 →
    parseMetadata json = .ok metadata →
      parsePublishBody parseMetadata (encodePublish json crate) = .ok ⟨metadata, crate⟩ := by
  refine ⟨fun range isRange => ?_, fun other => parsePublishBody_of_ranges,
    fun metadata crate => ⟨frames_of_parsePublishBody, ?_⟩, ?_⟩
  · grind [readRanges]
  · rintro ⟨json, frames, inRange, parsed⟩
    exact parsePublishBody_of_frames frames inRange parsed
  · intro json crate metadata inRange crateInRange parsed
    have short : json.length < 2 ^ 32 := by unfold maxJsonLen at inRange; omega
    exact parsePublishBody_of_frames (frames_encodePublish short crateInRange) inRange parsed

/-- The metadata of a crate, in JSON. -/
def metadataOf (name : String) : Bytes :=
  ("\x7b\"name\":\"" ++ name ++ "\",\"vers\":\"1.0.0\"\x7d").toByteArray.data.toList

/-- Metadata of more than ten megabytes is refused, here because of the blanks after it. -/
theorem parsePublishBody_large : let json := metadataOf "foo" ++ replicate maxJsonLen 32
    Frames (encodePublish json []) json [] ∧
      ∀ parseMetadata parsed, parsePublishBody parseMetadata (encodePublish json []) ≠
      .ok parsed := by
  intro json
  have length : json.length = 29 + maxJsonLen := by
    rw [length_append, length_replicate]
    rfl
  have inRange : json.length < 2 ^ 32 := length ▸ by decide
  refine ⟨frames_encodePublish inRange (by decide), fun parseMetadata parsed accepted => ?_⟩
  obtain ⟨other, ⟨first, _, _, isBody, isFirst, -, isLength, -⟩, short, -⟩ :=
    frames_of_parsePublishBody accepted
  have sameFirst : toLeBytes json.length = first :=
    (congrArg (take 4) isBody).trans (take_left' isFirst)
  rw [← sameFirst, fromLeBytes_toLeBytes inRange] at isLength
  omega

/-! ### Index files -/

structure IndexEntry where
  name : String
  vers : String
  deps : List CrateDependency := []
  cksum : String
  features : List (String × List String) := []
  yanked : Bool := false
  links : Option String := none
deriving DecidableEq, Repr

/-- A line of an index file: an entry, or a text that does not parse. -/
inductive IndexLine where
  | entry (entry : IndexEntry)
  | text (line : String)
deriving DecidableEq, Repr

def IndexLine.vers : IndexLine → Option String
  | .entry described => some described.vers
  | .text _ => none

def indexEntry (metadata : CrateMetadata) (cksum : String) : IndexEntry where
  name := metadata.name
  vers := metadata.version
  deps := metadata.deps
  cksum := cksum
  features := metadata.features
  links := metadata.links

def versions (lines : List IndexLine) : List String := lines.filterMap IndexLine.vers

def IndexLine.setYanked (version : String) (yanked : Bool) : IndexLine → IndexLine
  | .entry described =>
    .entry (if described.vers = version then { described with yanked } else described)
  | .text line => .text line

/-- The file with the flag of a version set; empty lines are left out. -/
def withYanked (version : String) (yanked : Bool) (lines : List IndexLine) : List IndexLine :=
  (lines.filter fun line => line ≠ .text "").map (IndexLine.setYanked version yanked)

theorem versions_append_entry (lines : List IndexLine) (described : IndexEntry) :
    versions (lines ++ [.entry described]) = versions lines ++ [described.vers] := by
  unfold versions
  rw [filterMap_append]
  rfl

end Muli.Cargo
