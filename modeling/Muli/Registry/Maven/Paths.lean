/-
**The paths of the Maven registry.**

A path names an artifact, a metadata document, or the checksum of one; checksums are recognised by
their extension, which is cut off as often as there is one. Texts are lists of characters.
-/

import Mathlib.Algebra.Order.BigOperators.Group.List
import Mathlib.Algebra.Order.Group.Nat
import Muli.Core.Validation

namespace Muli.Maven

open List

/-! ### Coordinates -/

inductive MavenValidationError where
  | invalidPath (reason : String)
  | pathTraversal (reason : String)
  | invalidGroupId (reason : String)
  | invalidArtifactId (reason : String)
  | invalidVersion (reason : String)
deriving DecidableEq, Repr

def MavenValidationError.toString : MavenValidationError → String
  | invalidPath reason => "invalid maven path: " ++ reason
  | pathTraversal reason => "path traversal attempt: " ++ reason
  | invalidGroupId reason => "invalid group id: " ++ reason
  | invalidArtifactId reason => "invalid artifact id: " ++ reason
  | invalidVersion reason => "invalid version: " ++ reason

/-- What a path names. The parts of the group are joined by dots. -/
structure MavenCoordinate where
  groupId : List Char
  artifactId : List Char
  version : Option (List Char)
  filename : Option (List Char)
deriving DecidableEq, Repr

def MavenCoordinate.isSnapshot (coord : MavenCoordinate) : Bool :=
  coord.version.any fun version => "-SNAPSHOT".toList.isSuffixOf version

inductive MavenPathKind where
  | artifactLevelMetadata
  | versionLevelMetadata
  | artifact
  | checksum (algorithm : String) (base : MavenPathKind)
deriving DecidableEq, Repr

abbrev Parse (α : Type) := Except MavenValidationError α

/-! ### Checks -/

/-- A text in quotes; escapes are left out. -/
def quoted (text : List Char) : String := "\"" ++ String.ofList text ++ "\""

def validateRawPath (path : List Char) : Parse Unit :=
  if ['.', '.'] <:+: path then .error (.pathTraversal "path contains '..'")
  else if '\\' ∈ path then .error (.pathTraversal "path contains backslash")
  else if '\x00' ∈ path then .error (.pathTraversal "path contains null byte")
  else if ['/', '/'] <:+: path then .error (.pathTraversal "path contains double slash")
  else
    let lower := path.map Char.toLower
    if ['%', '2', 'e'] <:+: lower ∨ ['%', '2', 'f'] <:+: lower ∨ ['%', '5', 'c'] <:+: lower ∨
        ['%', '0', '0'] <:+: lower then
      .error (.pathTraversal "path contains encoded traversal sequence")
    else .ok ()

def validatePathSegment (segment : List Char) : Parse Unit :=
  if segment = [] then .error (.pathTraversal "empty path segment")
  else if segment = ['.'] ∨ segment = ['.', '.'] then
    .error (.pathTraversal ("illegal segment: " ++ quoted segment))
  else .ok ()

def validateGroupIdParts (parts : List (List Char)) : Parse Unit :=
  if parts = [] then .error (.invalidGroupId "empty group id")
  else parts.forM fun part =>
    if part = [] then .error (.invalidGroupId "empty group id segment")
    else if !part.all fun c => c.isAlphanum || c == '_' || c == '-' then
      .error (.invalidGroupId ("invalid group id segment: " ++ quoted part))
    else .ok ()

def isNameChar (c : Char) : Bool := c.isAlphanum || c == '.' || c == '_' || c == '-'

def validateArtifactId (id : List Char) : Parse Unit :=
  if id = [] then .error (.invalidArtifactId "empty artifact id")
  else if !id.all isNameChar then .error (.invalidArtifactId ("invalid artifact id: " ++ quoted id))
  else .ok ()

def validateVersion (version : List Char) : Parse Unit :=
  if version = [] then .error (.invalidVersion "empty version")
  else if !version.all isNameChar then
    .error (.invalidVersion ("invalid version: " ++ quoted version))
  else .ok ()

/-- The segment starts with a digit, or is a snapshot. -/
def looksLikeVersion (segment : List Char) : Bool :=
  segment.head?.any Char.isDigit || "-SNAPSHOT".toList.isSuffixOf segment

/-! ### Parsing -/

def metadataName : List Char := "maven-metadata.xml".toList

def checksumExtensions : List String := [".sha1", ".md5", ".sha256", ".sha512"]

/-- The first extension that the text ends with, and the text without it. -/
def checksumSuffix (text : List Char) : Option (String × List Char) :=
  checksumExtensions.findSome? fun ext => (text.dropSuffix? ext.toList).map fun base => (ext, base)

def algorithmOf (ext : String) : String := String.ofList (ext.toList.dropWhile (· = '.'))

def segmentsOf (path : List Char) : List (List Char) := (path.splitOn '/').filter (· ≠ [])

def lastOf (segments : List (List Char)) : List Char := segments.getLast?.getD []

def parseMetadataPath (segments : List (List Char)) : Parse (MavenCoordinate × MavenPathKind) :=
  let parts := segments.dropLast
  if parts.length < 2 then .error (.invalidPath "metadata path too short")
  else
    let maybeVersion := lastOf parts
    if looksLikeVersion maybeVersion ∧ parts.length ≥ 3 then do
      let artifactId := lastOf parts.dropLast
      let groupParts := parts.dropLast.dropLast
      validateGroupIdParts groupParts
      validateArtifactId artifactId
      validateVersion maybeVersion
      .ok (⟨['.'].intercalate groupParts, artifactId, some maybeVersion, some metadataName⟩,
        .versionLevelMetadata)
    else do
      let artifactId := maybeVersion
      let groupParts := parts.dropLast
      validateGroupIdParts groupParts
      validateArtifactId artifactId
      .ok (⟨['.'].intercalate groupParts, artifactId, none, some metadataName⟩,
        .artifactLevelMetadata)

def parseArtifactPath (segments : List (List Char)) : Parse (MavenCoordinate × MavenPathKind) :=
  if segments.length < 4 then .error (.invalidPath "artifact path too short")
  else do
    let filename := lastOf segments
    let version := lastOf segments.dropLast
    let artifactId := lastOf segments.dropLast.dropLast
    let groupParts := segments.dropLast.dropLast.dropLast
    validateGroupIdParts groupParts
    validateArtifactId artifactId
    validateVersion version
    .ok (⟨['.'].intercalate groupParts, artifactId, some version, some filename⟩, .artifact)

/-- The path without the checksum extension of its last segment; a segment that is only an extension
is left out. -/
def basePath (segments : List (List Char)) (base : List Char) : List Char :=
  ['/'].intercalate (segments.dropLast ++ if base = [] then [] else [base])

/-- Segments that are fine each on its own; the path without a checksum extension is parsed again.
-/
def parseSegments (parseBase : List Char → Parse (MavenCoordinate × MavenPathKind))
    (segments : List (List Char)) : Parse (MavenCoordinate × MavenPathKind) :=
  match checksumSuffix (lastOf segments) with
  | some (ext, base) => do
    let (coord, baseKind) ← parseBase (basePath segments base)
    .ok ({ coord with filename := some (lastOf segments) }, .checksum (algorithmOf ext) baseKind)
  | none =>
    if lastOf segments = metadataName then parseMetadataPath segments
      else parseArtifactPath segments

/-- Parse a path with fewer than `bound` characters. -/
def parseWithin : (bound : ℕ) → List Char → Parse (MavenCoordinate × MavenPathKind)
  | 0, _ => .error (.invalidPath "path too short")
  | bound + 1, path => do
    validateRawPath path
    if (segmentsOf path).length < 3 then .error (.invalidPath "path too short")
    else do
      (segmentsOf path).forM validatePathSegment
      parseSegments (parseWithin bound) (segmentsOf path)

def parseMavenPath (path : List Char) : Parse (MavenCoordinate × MavenPathKind) :=
  parseWithin (path.length + 1) path

/-! ### The bound -/

theorem extension_length : ∀ ext ∈ checksumExtensions, 4 ≤ ext.toList.length := by decide

variable {ext : String}

theorem checksumSuffix_eq_some (found : checksumSuffix text = some (ext, base)) :
    ext ∈ checksumExtensions ∧ text = base ++ ext.toList := by
  obtain ⟨ext', mem, isMapped⟩ := exists_of_findSome?_eq_some found
  obtain ⟨base', stripped, same⟩ := Option.map_eq_some_iff.mp isMapped
  obtain ⟨rfl, rfl⟩ := Prod.mk.inj same
  obtain ⟨suffix, split, isSuffix⟩ := dropSuffix?_eq_some_iff.mp stripped
  rw [eq_of_beq isSuffix] at split
  exact ⟨mem, split⟩

theorem checksumSuffix_eq_none (missing : checksumSuffix text = none) :
    ∀ ext ∈ checksumExtensions, ¬ ext.toList <:+ text := by
  rintro ext mem ⟨base, rfl⟩
  have stripped := findSome?_eq_none_iff.mp missing ext mem
  have isBase : (base ++ ext.toList).dropSuffix? ext.toList = some base :=
    dropSuffix?_eq_some_iff.mpr ⟨_, rfl, BEq.rfl⟩
  rw [isBase] at stripped
  cases stripped

variable {segments : List (List Char)}

theorem dropLast_append_lastOf (nonempty : segments ≠ []) :
    segments.dropLast ++ [lastOf segments] = segments := by
  unfold lastOf
  rw [getLast?_eq_some_getLast nonempty]
  exact dropLast_append_getLast nonempty

theorem lastOf_mem (nonempty : segments ≠ []) : lastOf segments ∈ segments := by
  unfold lastOf
  rw [getLast?_eq_some_getLast nonempty]
  exact getLast_mem nonempty

theorem segments_ne_nil (found : checksumSuffix (lastOf segments) = some (ext, base)) :
    segments ≠ [] := by
  rintro rfl
  cases found

theorem length_basePath (found : checksumSuffix (lastOf (segmentsOf path)) = some (ext, base)) :
    (basePath (segmentsOf path) base).length < path.length := by
  obtain ⟨isExt, isLast⟩ := checksumSuffix_eq_some found
  have longer := extension_length ext isExt
  have lastLength : (lastOf (segmentsOf path)).length = base.length + ext.toList.length := by
    rw [isLast, length_append]
  have nonempty := segments_ne_nil found
  have whole : ((segmentsOf path).map fun part => part.length + 1).sum ≤ path.length + 1 := by
    have all := Text.length_intercalate (c := '/') (splitOn_ne_nil '/' path)
    rw [intercalate_splitOn] at all
    rw [all]
    exact List.Sublist.sum_le_sum (.map _ filter_sublist) fun _ _ => Nat.zero_le _
  rw [← dropLast_append_lastOf nonempty, map_append, sum_append] at whole
  simp only [map_cons, map_nil, sum_singleton] at whole
  unfold basePath
  by_cases noParts : (segmentsOf path).dropLast ++ (if base = [] then [] else [base]) = []
  · rw [noParts]
    simp only [intercalate, intersperse_nil, flatten_nil, length_nil]
    omega
  · have shorter := Text.length_intercalate (c := '/') noParts
    rw [map_append, sum_append] at shorter
    split_ifs at shorter ⊢ with empty
    · grind
    · grind

variable {path : List Char}

/-- **The bound is never met.** -/
theorem parseWithin_eq (enough : path.length < bound) (enough' : path.length < bound') :
    parseWithin bound path = parseWithin bound' path := by
  induction bound generalizing bound' path with
  | zero => exact absurd enough (Nat.not_lt_zero _)
  | succ bound ih =>
    cases bound' with
    | zero => exact absurd enough' (Nat.not_lt_zero _)
    | succ bound' =>
      have same : parseSegments (parseWithin bound) (segmentsOf path) =
          parseSegments (parseWithin bound') (segmentsOf path) := by
        unfold parseSegments
        cases found : checksumSuffix (lastOf (segmentsOf path)) with
        | none => rfl
        | some parts =>
          obtain ⟨ext, base⟩ := parts
          have shorter := length_basePath found
          have sameBase : parseWithin bound (basePath (segmentsOf path) base) =
              parseWithin bound' (basePath (segmentsOf path) base) := ih (by omega) (by omega)
          dsimp only
          rw [sameBase]
      unfold parseWithin
      rw [same]

/-! ### File names -/

/-- The name of an artifact file: it has no checksum extension and is not that of the metadata. -/
structure IsPlain (file : List Char) : Prop where
  nonempty : file ≠ []
  noMetadata : file ≠ metadataName
  noChecksum : ∀ ext ∈ checksumExtensions, ¬ ext.toList <:+ file

/-- **What the kind of a path says about the coordinate.** -/
inductive Shape (coord : MavenCoordinate) : MavenPathKind → Prop
  | artifact {version file : List Char} (isVersion : coord.version = some version)
      (isFile : coord.filename = some file) (isPlain : IsPlain file) : Shape coord .artifact
  | artifactLevel (isFile : coord.filename = some metadataName) : Shape coord .artifactLevelMetadata
  | versionLevel (isFile : coord.filename = some metadataName) : Shape coord .versionLevelMetadata
  | checksum {ext : String} {base : List Char} {baseKind : MavenPathKind}
      (isExt : ext ∈ checksumExtensions) (isFile : coord.filename = some (base ++ ext.toList))
      (ofPlain : IsPlain base → baseKind = .artifact ∧ coord.version.isSome) :
      Shape coord (.checksum (algorithmOf ext) baseKind)

theorem not_suffix_metadataName : ∀ ext ∈ checksumExtensions, ¬ ext.toList <:+ metadataName := by
  decide +kernel

variable {coord : MavenCoordinate} {kind : MavenPathKind}

theorem parseMetadataPath_shape (parsed : parseMetadataPath segments = .ok (coord, kind)) :
    coord.filename = some metadataName ∧ Shape coord kind := by
  unfold parseMetadataPath at parsed
  dsimp only at parsed
  split_ifs at parsed
  · iterate 3 obtain ⟨_, -, parsed⟩ := exists_of_bind_eq_ok parsed
    cases parsed
    exact ⟨rfl, .versionLevel rfl⟩
  · iterate 2 obtain ⟨_, -, parsed⟩ := exists_of_bind_eq_ok parsed
    cases parsed
    exact ⟨rfl, .artifactLevel rfl⟩

theorem parseArtifactPath_shape (isPlain : IsPlain (lastOf segments))
    (parsed : parseArtifactPath segments = .ok (coord, kind)) :
    coord.filename = some (lastOf segments) ∧ Shape coord kind := by
  unfold parseArtifactPath at parsed
  split_ifs at parsed
  iterate 3 obtain ⟨_, -, parsed⟩ := exists_of_bind_eq_ok parsed
  cases parsed
  exact ⟨rfl, .artifact rfl rfl isPlain⟩

theorem mem_segmentsOf {path segment : List Char} (isSegment : segment ∈ segmentsOf path) :
    '/' ∉ segment ∧ segment ≠ [] := by
  obtain ⟨isPart, nonempty⟩ := mem_filter.mp isSegment
  exact ⟨Text.not_mem_of_mem_splitOn isPart, by simpa using nonempty⟩

theorem segmentsOf_intercalate (nonempty : segments ≠ [])
    (each : ∀ segment ∈ segments, '/' ∉ segment ∧ segment ≠ []) :
    segmentsOf (['/'].intercalate segments) = segments := by
  unfold segmentsOf
  rw [splitOn_intercalate '/' (fun segment mem => (each segment mem).1) nonempty]
  refine filter_eq_self.mpr fun segment mem => ?_
  simpa using (each segment mem).2

theorem lastOf_basePath (found : checksumSuffix (lastOf (segmentsOf path)) = some (ext, base))
    (nonempty : base ≠ []) : lastOf (segmentsOf (basePath (segmentsOf path) base)) = base := by
  obtain ⟨-, isLast⟩ := checksumSuffix_eq_some found
  have isSegment := lastOf_mem (segments_ne_nil found)
  have noSlash : '/' ∉ base := by
    intro mem
    refine (mem_segmentsOf isSegment).1 ?_
    rw [isLast]
    exact mem_append_left _ mem
  unfold basePath
  rw [if_neg nonempty, segmentsOf_intercalate (by simp)]
  · simp [lastOf]
  · intro segment mem
    rcases mem_append.mp mem with old | new
    · exact mem_segmentsOf (mem_of_mem_dropLast old)
    · simp_all

/-- **The kind of a path and its file name.** -/
theorem parseWithin_shape (parsed : parseWithin bound path = .ok (coord, kind)) :
    coord.filename = some (lastOf (segmentsOf path)) ∧ Shape coord kind := by
  induction bound generalizing path coord kind with
  | zero => cases parsed
  | succ bound ih =>
    obtain ⟨_, -, parsed⟩ := exists_of_bind_eq_ok parsed
    split_ifs at parsed with short
    obtain ⟨_, -, parsed⟩ := exists_of_bind_eq_ok parsed
    unfold parseSegments at parsed
    cases found : checksumSuffix (lastOf (segmentsOf path)) with
    | none =>
      rw [found] at parsed
      split_ifs at parsed with isMetadata
      · rw [isMetadata]
        exact parseMetadataPath_shape parsed
      · have nonempty : segmentsOf path ≠ [] := by grind
        exact parseArtifactPath_shape ⟨(mem_segmentsOf (lastOf_mem nonempty)).2, isMetadata,
          checksumSuffix_eq_none found⟩ parsed
    | some parts =>
      rw [found] at parsed
      obtain ⟨⟨baseCoord, baseKind⟩, isBase, parsed⟩ := exists_of_bind_eq_ok parsed
      cases parsed
      obtain ⟨isExt, isLast⟩ := checksumSuffix_eq_some found
      obtain ⟨isFile, shape⟩ := ih isBase
      refine ⟨rfl, .checksum isExt (congrArg some isLast) fun isPlain => ?_⟩
      rw [lastOf_basePath found isPlain.nonempty] at isFile
      cases shape with
      | artifact isVersion isFile' isPlain' => simp [*]
      | artifactLevel isFile' | versionLevel isFile' =>
        exact absurd (Option.some.inj (isFile.symm.trans isFile')) isPlain.noMetadata
      | checksum isExt' isFile' =>
        have ends := Option.some.inj (isFile.symm.trans isFile')
        exact absurd ⟨_, ends.symm⟩ (isPlain.noChecksum _ isExt')

theorem parseMavenPath_filename (parsed : parseMavenPath path = .ok (coord, kind)) :
    coord.filename = some (lastOf (segmentsOf path)) :=
  (parseWithin_shape parsed).1

theorem parseMavenPath_shape (parsed : parseMavenPath path = .ok (coord, kind)) :
    Shape coord kind :=
  (parseWithin_shape parsed).2

/-! ### The checksum of an artifact -/

theorem intercalate_concat_append {α : Type} (c : α) (parts : List (List α))
    (last ending : List α) :
    [c].intercalate (parts ++ [last ++ ending]) = [c].intercalate (parts ++ [last]) ++ ending := by
  induction parts with
  | nil => simp [intercalate]
  | cons part parts ih =>
    cases parts with
    | nil => simp [intercalate]
    | cons next parts => simp_all

theorem extension_patterns : ∀ ext ∈ checksumExtensions, ∃ rest, ext.toList = '.' :: rest ∧
    '.' ∉ rest ∧ '\\' ∉ rest ∧ '\x00' ∉ rest ∧ '/' ∉ rest ∧ '%' ∉ rest.map Char.toLower := by
  intro ext isExt
  refine ⟨ext.toList.tail, ?_⟩
  revert ext
  decide +kernel

section

variable (isExt : ext ∈ checksumExtensions)
include isExt

theorem validateRawPath_append
    (noDot : ¬ ['.'] <:+ path) (valid : validateRawPath path = .ok ()) :
    validateRawPath (path ++ ext.toList) = .ok () := by
  obtain ⟨rest, isExt, noDots, noBackslash, noNull, noSlash, noPercent⟩ :=
    extension_patterns ext isExt
  have escapes : ∀ c d, '.' ∉ ['%', c, d] → ¬ ['%', c, d] <:+: path.map Char.toLower →
      ¬ ['%', c, d] <:+: (path ++ ext.toList).map Char.toLower := by
    intro c d notMem notInPath isInfix
    rw [isExt, map_append, map_cons] at isInfix
    rcases Text.infix_append_of_not_mem notMem isInfix with inPath | inExt
    · exact notInPath inPath
    · have percent : '%' ∈ '.'.toLower :: rest.map Char.toLower := inExt.subset mem_cons_self
      rcases mem_cons.mp percent with isDot | inRest
      · exact absurd isDot (by decide)
      · exact noPercent inRest
  unfold validateRawPath at valid ⊢
  dsimp only at valid ⊢
  split_ifs at valid with dots backslash null slashes encoded
  rw [not_or, not_or, not_or] at encoded
  rw [if_neg, if_neg, if_neg, if_neg, if_neg]
  · simp_all
  · rw [isExt]
    intro isInfix
    rcases Text.infix_append_of_not_mem (by decide) isInfix with inPath | inExt
    · exact slashes inPath
    · rcases mem_cons.mp (inExt.subset mem_cons_self) with isDot | inRest
      · exact absurd isDot (by decide)
      · exact noSlash inRest
  · rw [isExt]
    simp [null, noNull]
  · rw [isExt]
    simp [backslash, noBackslash]
  · rw [isExt]
    intro isInfix
    rcases infix_append_iff.mp isInfix with inPath | inExt | ⟨first, second, isSplit, ends, starts⟩
    · exact dots inPath
    · rcases infix_cons_iff.mp inExt with starts | inRest
      · exact noDots ((cons_prefix_cons.mp starts).2.subset mem_cons_self)
      · exact noDots (inRest.subset mem_cons_self)
    · rcases first with _ | ⟨c, _ | ⟨d, first⟩⟩
      · grind [mem_cons_self]
      · grind
      · obtain ⟨rfl, later⟩ := cons.inj isSplit
        obtain ⟨rfl, nothing⟩ := cons.inj later
        obtain ⟨rfl, -⟩ := append_eq_nil_iff.mp nothing.symm
        exact dots ends.isInfix

theorem eq_of_suffix (isExt' : ext' ∈ checksumExtensions)
    (ends : ext.toList <:+ text) (ends' : ext'.toList <:+ text) : ext = ext' := by
  exact Text.eq_of_endings (by decide) isExt isExt' ends ends'

theorem checksumSuffix_append (base : List Char) :
    checksumSuffix (base ++ ext.toList) = some (ext, base) := by
  cases found : checksumSuffix (base ++ ext.toList) with
  | none => exact absurd ⟨base, rfl⟩ (checksumSuffix_eq_none found ext isExt)
  | some parts =>
    obtain ⟨ext', base'⟩ := parts
    obtain ⟨isExt', split⟩ := checksumSuffix_eq_some found
    obtain rfl := eq_of_suffix isExt isExt' ⟨base, rfl⟩ ⟨base', split.symm⟩
    rw [append_cancel_right split]

theorem segment_append (noSlash : '/' ∉ last) :
    '/' ∉ last ++ ext.toList ∧ last ++ ext.toList ≠ [] := by
  obtain ⟨rest, isText, -, -, -, noSlash', -⟩ := extension_patterns ext isExt
  rw [isText]
  simp [noSlash, noSlash']

theorem validatePathSegment_append
    (last : List Char) : validatePathSegment (last ++ ext.toList) = .ok () := by
  have longer : 4 ≤ (last ++ ext.toList).length := by grind [extension_length]
  unfold validatePathSegment
  rw [if_neg, if_neg]
  · rintro (isDot | isDots)
    · rw [isDot] at longer
      simp at longer
    · rw [isDots] at longer
      simp at longer
  · grind

/-- **The checksum of an artifact has the path of the artifact with the extension.** -/
theorem parseMavenPath_checksum (spelled : [] ∉ path.splitOn '/') (noDot : ¬ ['.'] <:+ path)
    (parsed : parseMavenPath path = .ok (coord, .artifact)) :
    parseMavenPath (path ++ ext.toList) =
      .ok ({ coord with filename := some (lastOf (segmentsOf path) ++ ext.toList) },
        .checksum (algorithmOf ext) .artifact) := by
  have isWhole : segmentsOf path = path.splitOn '/' := by
    refine filter_eq_self.mpr fun segment mem => ?_
    have nonempty : segment ≠ [] := fun empty => spelled (empty ▸ mem)
    simpa using nonempty
  have joined : ['/'].intercalate (segmentsOf path) = path := by
    rw [isWhole, intercalate_splitOn]
  have again := parsed
  obtain ⟨_, valid, again⟩ := exists_of_bind_eq_ok again
  split_ifs at again with short
  obtain ⟨_, each, -⟩ := exists_of_bind_eq_ok again
  have nonempty : segmentsOf path ≠ [] := by simp [*]
  have split := dropLast_append_lastOf nonempty
  have withExt : path ++ ext.toList = ['/'].intercalate
      ((segmentsOf path).dropLast ++ [lastOf (segmentsOf path) ++ ext.toList]) := by
    rw [intercalate_concat_append, split, joined]
  have isSegments :
      ∀ segment ∈ (segmentsOf path).dropLast ++ [lastOf (segmentsOf path) ++ ext.toList],
      ('/' ∉ segment ∧ segment ≠ []) ∧ validatePathSegment segment = .ok () := by
    intro segment mem
    rcases mem_append.mp mem with old | new
    · have inPath := mem_of_mem_dropLast old
      exact ⟨mem_segmentsOf inPath, forM_eq_ok.mp each segment inPath⟩
    · obtain rfl := mem_singleton.mp new
      exact ⟨segment_append isExt (mem_segmentsOf (lastOf_mem nonempty)).1,
        validatePathSegment_append isExt _⟩
  have segments : segmentsOf (path ++ ext.toList) =
      (segmentsOf path).dropLast ++ [lastOf (segmentsOf path) ++ ext.toList] := by
    rw [withExt]
    exact segmentsOf_intercalate (by simp) fun segment mem => (isSegments segment mem).1
  have isLast : lastOf (segmentsOf (path ++ ext.toList)) = lastOf (segmentsOf path) ++
      ext.toList := by
    rw [segments]
    simp [lastOf]
  have isBase : basePath (segmentsOf (path ++ ext.toList)) (lastOf (segmentsOf path)) = path := by
    unfold basePath
    rw [if_neg (mem_segmentsOf (lastOf_mem nonempty)).2, segments, dropLast_concat, split, joined]
  have sameLength : (segmentsOf (path ++ ext.toList)).length = (segmentsOf path).length := by
    rw [segments, ← congrArg length split]
    simp
  have base : parseWithin (path ++ ext.toList).length path = .ok (coord, .artifact) := by
    have longer : path.length < (path ++ ext.toList).length := by grind [extension_length]
    rw [parseWithin_eq longer (Nat.lt_succ_self _)]
    exact parsed
  have parts : parseSegments (parseWithin (path ++ ext.toList).length)
      (segmentsOf (path ++ ext.toList)) =
      .ok ({ coord with filename := some (lastOf (segmentsOf path) ++ ext.toList) },
        .checksum (algorithmOf ext) .artifact) := by
    unfold parseSegments
    rw [isLast, checksumSuffix_append isExt]
    dsimp only
    rw [isBase, base]
    rfl
  unfold parseMavenPath parseWithin
  rw [validateRawPath_append isExt noDot valid, sameLength, parts]
  rw [if_neg short, forM_eq_ok.mpr]
  · rfl
  · simp_all

end

end Muli.Maven
