/-
**The files of Luat packages.**

A package has an index with one line for each version, a summary, and for each version the tarball
and the data of its page. Every file is written as a whole, by a rename; the writes of publishes and
yanks are made under one lock. A request that is dropped gives the lock up, while a write that it
had begun may still land later.

* `pages_of_search` — **the pages of a search are the packages that match, each once and in order.**
-/

import Mathlib.Data.List.Infix
import Mathlib.Data.List.TakeWhile
import Mathlib.Data.Prod.Lex
import Muli.Data.Text
import Muli.Interaction.Typestate
import Muli.Registry.Luat.Identity

namespace Muli.Luat

open Interaction

/-! ### Documents -/

/-- A line of the index of a package: one version. -/
structure IndexEntry where
  name : String
  vers : String
  deps : List (String × String) := []
  cksum : String
  luat : Option String := none
  yanked : Bool := false
deriving DecidableEq, Repr

/-- Package-page data kept for every published version. -/
structure VersionMeta where
  name : String
  vers : String
  description : Option String := none
  license : Option String := none
  repository : Option String := none
  keywords : List String := []
  readme : Option String := none
  dependencies : List (String × String) := []
  files : List String := []
  luat : Option String := none
  cksum : String
  size : ℕ
  publishedAt : Timestamp
deriving DecidableEq, Repr

/-- Search and listing row, rewritten on every publish, yank and unyank. -/
structure PackageSummary where
  name : String
  description : Option String
  latest : Option String
  keywords : List String
  updatedAt : Timestamp
deriving DecidableEq, Repr

/-- A line of an index file: an entry, or a text that does not parse as one. -/
inductive IndexLine where
  | readable (entry : IndexEntry)
  | unreadable (text : String)
deriving DecidableEq, Repr

def IndexLine.parsed : IndexLine → Option IndexEntry
  | readable entry => some entry
  | unreadable _ => none

/-- Lines that cannot be read are left out. -/
def parseIndex (lines : List IndexLine) : List IndexEntry := lines.filterMap IndexLine.parsed

def renderIndex (entries : List IndexEntry) : List IndexLine := entries.map .readable

theorem parseIndex_renderIndex (entries : List IndexEntry) :
    parseIndex (renderIndex entries) = entries := by
  unfold parseIndex renderIndex
  rw [List.filterMap_map]
  exact List.filterMap_some

/-! ### Files -/

/-- The directory of a package. The names are path components, as they are valid. -/
structure PackageDir where
  tenantId : String
  scope : String
  name : String
  valid : isValidPart scope = true ∧ isValidPart name = true
deriving DecidableEq

/-- The directory of a package whose scope and name are valid. -/
def packageDir (tenantId scope name : String) : Option PackageDir :=
  if valid : isValidPart scope = true ∧ isValidPart name = true then
    some ⟨tenantId, scope, name, valid⟩
  else none

/-- The files of a package. A document that does not parse counts as missing. -/
structure PackageFiles where
  index : Option (List IndexLine) := none
  summary : Option PackageSummary := none
  tarballs : String → Option Bytes := fun _ => none
  metas : String → Option VersionMeta := fun _ => none

/-- A write of one file of a package. -/
inductive FileWrite where
  | tarball (version : String) (bytes : Bytes)
  | pageData (version : String) (page : VersionMeta)
  | index (lines : List IndexLine)
  | summary (summary : PackageSummary)

namespace PackageFiles

def write (files : PackageFiles) : FileWrite → PackageFiles
  | .tarball version bytes =>
    { files with tarballs := Function.update files.tarballs version bytes }
  | .pageData version page => { files with metas := Function.update files.metas version page }
  | .index lines => { files with index := lines }
  | .summary summary => { files with summary := summary }

/-- What is in the index, as far as it can be read. -/
def entries (files : PackageFiles) : List IndexEntry := (files.index.map parseIndex).getD []

end PackageFiles

/-! ### Calls -/

/-- Why a storage function stops: an access failed, or the request was dropped. The error of an
access is only logged. -/
inductive Stop where
  | failed
  | dropped
deriving DecidableEq, Repr

/-- The calls on the identities, the quotas, the files and the clock. -/
inductive LuatCall where
  | identity (call : IdentityCall)
  | quota (call : QuotaCall)
  | readIndex (package : PackageDir)
  | readSummary (package : PackageDir)
  | readVersionMeta (package : PackageDir) (version : String)
  | atomicWrite (package : PackageDir) (file : FileWrite)
  | now
  | tryLock
  | unlock
  /-- A point at which the request may be dropped. -/
  | stillThere
  /-- A write in flight lands. -/
  | land

abbrev LuatCall.Answer : LuatCall → Type
  | identity call => Except MuliError call.Value
  | quota call => call.Answer
  | readIndex _ => Except Stop (Option (List IndexLine))
  | readSummary _ => Except Stop (Option PackageSummary)
  | readVersionMeta .. => Except Stop (Option VersionMeta)
  | atomicWrite .. => Except Stop Unit
  | now => Timestamp
  | tryLock => Bool
  | unlock => Unit
  | stillThere => Bool
  | land => Unit

abbrev LuatCalls : Interface := ⟨LuatCall, LuatCall.Answer⟩

/-- What the server keeps, and what has failed so far. -/
structure LuatWorld where
  files : PackageDir → PackageFiles := fun _ => {}
  /-- Writes of dropped requests that have not landed. -/
  inFlight : List (PackageDir × FileWrite) := []
  locked : Bool := false
  quotas : QuotaTable := ∅
  directory : Directory
  /-- The calls on a store that failed. -/
  failures : List LuatCall := []

structure LuatMoment where
  works : Bool := true
  /-- The request is dropped while its write is in flight. -/
  detaches : Bool := false
  /-- The request is not dropped. -/
  stays : Bool := true
  /-- Which of the writes in flight lands. -/
  landing : ℕ := 0
  now : Timestamp := 0
  scan : Scan Organization := Scan.forward

namespace LuatWorld

/-- The write has reached the file. -/
def put (world : LuatWorld) (package : PackageDir) (file : FileWrite) : LuatWorld :=
  { world with files := Function.update world.files package ((world.files package).write file) }

/-- Note a call that failed. -/
def fails (world : LuatWorld) (call : LuatCall) : LuatWorld :=
  { world with failures := world.failures ++ [call] }

def reads {α : Type} (world : LuatWorld) (works : Bool) (call : LuatCall) (value : α) :
    Except Stop α × LuatWorld :=
  if works then (.ok value, world) else (.error .failed, world.fails call)

/-- A write in flight reaches its file. -/
def lands (world : LuatWorld) (place : ℕ) : LuatWorld :=
  match world.inFlight[place]? with
  | some (package, file) =>
    { world.put package file with inFlight := world.inFlight.eraseIdx place }
  | none => world

end LuatWorld

/-- **What a call answers and how it changes the world.** -/
def luatHandle : Handler LuatCalls LuatWorld LuatMoment
  | moment, .identity call, world =>
    let (answer, directory) :=
      identityHandle (if moment.works then some moment.scan else none) call world.directory
    (answer, if moment.works then { world with directory }
      else { world.fails (.identity call) with directory })
  | moment, .quota call, world =>
    let (answer, quotas) := quotaHandle moment.works call world.quotas
    (answer, if moment.works then { world with quotas }
      else { world.fails (.quota call) with quotas })
  | moment, .readIndex package, world =>
    world.reads moment.works (.readIndex package) (world.files package).index
  | moment, .readSummary package, world =>
    world.reads moment.works (.readSummary package) (world.files package).summary
  | moment, .readVersionMeta package version, world =>
    world.reads moment.works (.readVersionMeta package version)
      ((world.files package).metas version)
  | moment, .atomicWrite package file, world =>
    -- a task on a blocking thread goes on when the future that awaits it is dropped
    if moment.detaches then
      (.error .dropped, { world with inFlight := world.inFlight ++ [(package, file)] })
    else if moment.works then (.ok (), world.put package file)
    else (.error .failed, world.fails (.atomicWrite package file))
  | moment, .now, world => (moment.now, world)
  | _, .tryLock, world => (!world.locked, { world with locked := true })
  | _, .unlock, world => ((), { world with locked := false })
  | moment, .stillThere, world => (moment.stays, world)
  | moment, .land, world => ((), world.lands moment.landing)

/-! ### The storage functions -/

abbrev StoreProg (α : Type) := ExceptT Stop (Prog LuatCalls) α

/-- The request goes on if its client is still there. -/
def goOn : StoreProg Unit := do
  if ← ExceptT.lift (Prog.perform (I := LuatCalls) .stillThere) then pure () else throw .dropped

def readIndex (package : PackageDir) : StoreProg (Option (List IndexLine)) := do
  let lines ← ExceptT.mk (Prog.perform (I := LuatCalls) (.readIndex package))
  goOn
  pure lines

def readSummary (package : PackageDir) : StoreProg (Option PackageSummary) := do
  let summary ← ExceptT.mk (Prog.perform (I := LuatCalls) (.readSummary package))
  goOn
  pure summary

def readVersionMeta (package : PackageDir) (version : String) : StoreProg (Option VersionMeta) := do
  let page ← ExceptT.mk (Prog.perform (I := LuatCalls) (.readVersionMeta package version))
  goOn
  pure page

def atomicWrite (package : PackageDir) (file : FileWrite) : StoreProg Unit := do
  ExceptT.mk (Prog.perform (I := LuatCalls) (.atomicWrite package file))
  goOn

section Versions

variable (semver : Semver)

/-- Versions that differ only in their build metadata are one release. -/
def findVersion (entries : List IndexEntry) (version : String) : Option IndexEntry :=
  entries.find? fun entry => semver.sameRelease entry.vers version

/-- The entry of highest precedence, the last one of several. -/
def best (parsed : List (semver.Version × IndexEntry)) : Option IndexEntry :=
  (parsed.foldl (fun (found : Option (semver.Version × IndexEntry)) next =>
    match found with
    | some found =>
      if semver.precedence found.1 ≤ semver.precedence next.1 then some next else some found
    | none => some next) none).map Prod.snd

/-- The version shown as latest: the highest non-yanked release, else the highest non-yanked
pre-release, else the highest version. -/
def latest (entries : List IndexEntry) : Option IndexEntry :=
  let parsed := entries.filterMap fun entry => (semver.parse entry.vers).map fun v => (v, entry)
  (best semver (parsed.filter fun (v, entry) => !entry.yanked && !semver.isPrerelease v)).or
    ((best semver (parsed.filter fun (_, entry) => !entry.yanked)).or (best semver parsed))

/-- The page of the latest version, if there is one. -/
def latestPage (package : PackageDir) : Option String → StoreProg (Option VersionMeta)
  | some version => readVersionMeta package version
  | none => pure none

def orNow : Option Timestamp → StoreProg Timestamp
  | some stamp => pure stamp
  | none => ExceptT.lift (Prog.perform (I := LuatCalls) .now)

/-- Write the summary of a package from its index. -/
def refreshSummary (package : PackageDir) (entries : List IndexEntry)
    (updatedAt : Option Timestamp) : StoreProg Unit := do
  let previous ← readSummary package
  let latestVers := (latest semver entries).map IndexEntry.vers
  let page ← latestPage package latestVers
  let stamp ← orNow (updatedAt.or (previous.map PackageSummary.updatedAt))
  atomicWrite package (.summary
    { name := fullName package.scope package.name
      description := page.bind VersionMeta.description
      latest := latestVers
      keywords := (page.map VersionMeta.keywords).getD []
      updatedAt := stamp })

/-- Store a new version: tarball and page data first, then the index line that makes it visible,
then the summary. -/
def storeVersion (package : PackageDir) (tarball : Bytes) (page : VersionMeta)
    (entry : IndexEntry) : StoreProg Unit :=
  match semver.parse page.vers with
  | none => throw .failed
  | some _ => do
    atomicWrite package (.tarball page.vers tarball)
    atomicWrite package (.pageData page.vers page)
    let lines ← readIndex package
    let entries := (lines.map parseIndex).getD [] ++ [entry]
    atomicWrite package (.index (renderIndex entries))
    refreshSummary semver package entries (some page.publishedAt)

/-- Set the flag in the first entry of the release. -/
def flagVersion (version : String) (yanked : Bool) (entries : List IndexEntry) : List IndexEntry :=
  entries.modify (entries.findIdx fun entry => semver.sameRelease entry.vers version)
    fun entry => { entry with yanked }

/-- Flip the flag of a version; `false` when it does not exist. -/
def setYanked (package : PackageDir) (version : String) (yanked : Bool) : StoreProg Bool := do
  match ← readIndex package with
  | none => pure false
  | some lines =>
    match findVersion semver (parseIndex lines) version with
    | none => pure false
    | some entry =>
      if entry.yanked = yanked then pure true
      else do
        let entries := flagVersion semver version yanked (parseIndex lines)
        atomicWrite package (.index (renderIndex entries))
        refreshSummary semver package entries none
        pure true

def versionExists (package : PackageDir) (version : String) : StoreProg Bool := do
  match ← readIndex package with
  | some lines => pure (findVersion semver (parseIndex lines) version).isSome
  | none => pure false

end Versions

/-! ### The catalogue -/

section Catalog

variable (lower trim : String → String)

def MAX_PER_PAGE : ℕ := 100

/-- Case-insensitive match on name, description and keywords. -/
def matchesNeedle (needle : String) (summary : PackageSummary) : Bool :=
  let contains text := decide (needle.toList <:+: (lower text).toList)
  contains summary.name || summary.description.any contains || summary.keywords.any contains

/-- What is searched for, if it is not blank. -/
def needleOf (query : Option String) :
    Option String := (query.map fun q => lower (trim q)).filter (· ≠ "")

/-- The name, or the part after its last slash, is what is asked for. -/
def isExact (needle : Option String) (summary : PackageSummary) : Bool :=
  needle.any fun n =>
    lower summary.name == n || ((lower summary.name).toList.reverse.takeWhile (· ≠ '/')).reverse ==
      n.toList

/-- The packages that match. -/
def kept (needle : Option String) (all : List PackageSummary) : List PackageSummary :=
  all.filter fun summary => needle.all (matchesNeedle lower · summary)

/-- Exact matches first, then the latest. -/
def ordered (needle : Option String) (all : List PackageSummary) : List PackageSummary :=
  sortDesc (fun s => toLex (isExact lower needle s, toLex (s.updatedAt, OrderDual.toDual s.name)))
    (kept lower needle all)

/-- Filter, order and paginate. Returns the page and the total match count. -/
def search (all : List PackageSummary) (query : Option String) (page perPage : ℕ) :
    List PackageSummary × ℕ :=
  let all := ordered lower (needleOf lower trim query) all
  let perPage := min (max 1 perPage) MAX_PER_PAGE
  ((all.drop ((max 1 page - 1) * perPage)).take perPage, all.length)

/-- **The package answers the query**: the text of the query, without blanks around it, is part of
the name, the description or a keyword, all in lower case. -/
def Matches (query : Option String) (summary : PackageSummary) : Prop :=
  ∀ q ∈ query, ∃ text ∈ summary.name :: summary.description.toList ++ summary.keywords,
    (lower (trim q)).toList <:+: (lower text).toList

instance (query : Option String) (summary : PackageSummary) :
    Decidable (Matches lower trim query summary) :=
  inferInstanceAs (Decidable (∀ q ∈ query, _))

/-- **The query is the name of the package**, with or without its scope. -/
def IsNamed (query : Option String) (summary : PackageSummary) : Prop :=
  ∃ q ∈ query, lower (trim q) ≠ "" ∧ (lower summary.name = lower (trim q) ∨
    '/' ∉ (lower (trim q)).toList ∧
      ∃ scope, (lower summary.name).toList = scope ++ '/' :: (lower (trim q)).toList)

/-- The packages with the name that is asked for before the others, then the more recent, then by
name. -/
def Precedes (query : Option String) (a b : PackageSummary) : Prop :=
  IsNamed lower trim query a ∧ ¬ IsNamed lower trim query b ∨
    (IsNamed lower trim query a ↔ IsNamed lower trim query b) ∧
      (b.updatedAt < a.updatedAt ∨ b.updatedAt = a.updatedAt ∧ a.name < b.name)

variable {query : Option String} {summary : PackageSummary}

theorem all_matchesNeedle_iff :
    (needleOf lower trim query).all (matchesNeedle lower · summary) ↔
      Matches lower trim query summary := by
  cases query with
  | none => simp [needleOf, Matches]
  | some q =>
    by_cases empty : lower (trim q) = ""
    · simp [needleOf, Matches, empty]
    · simp [needleOf, Matches, matchesNeedle, empty, Option.filter, or_assoc, Option.any_eq_true,
        or_and_right, exists_or]

/-- The part after the last slash. -/
theorem takeWhile_reverse_eq_iff {text part : List Char} :
    (text.reverse.takeWhile (· ≠ '/')).reverse = part ↔
      '/' ∉ part ∧ (text = part ∨ ∃ scope, text = scope ++ '/' :: part) := by
  constructor
  · rintro rfl
    refine ⟨fun mem => ?_, ?_⟩
    · simpa using List.mem_takeWhile_imp (List.mem_reverse.mp mem)
    · have whole := List.takeWhile_append_dropWhile (p := (· ≠ '/')) (l := text.reverse)
      have stop := List.head?_dropWhile_not (· ≠ '/') text.reverse
      cases rest : text.reverse.dropWhile (· ≠ '/') with
      | nil =>
        left
        rw [rest, List.append_nil] at whole
        rw [whole, List.reverse_reverse]
      | cons c rest' =>
        rw [rest] at whole stop
        obtain rfl : c = '/' := by simpa using stop
        right
        refine ⟨rest'.reverse, ?_⟩
        rw [← List.reverse_inj, List.reverse_append, List.reverse_cons, List.reverse_reverse,
          List.reverse_reverse, List.append_assoc]
        exact whole.symm
  · rintro ⟨noSlash, whole⟩
    have all : ∀ c ∈ part.reverse, decide (c ≠ '/') := by
      simpa using fun c mem (isSlash : c = '/') => noSlash (isSlash ▸ mem)
    obtain rfl | ⟨scope, rfl⟩ := whole
    · rw [List.takeWhile_eq_self_iff.mpr all, List.reverse_reverse]
    · rw [List.reverse_append, List.reverse_cons, List.append_assoc,
        List.takeWhile_append_of_pos all]
      simp

theorem isExact_needleOf_iff :
    isExact lower (needleOf lower trim query) summary ↔ IsNamed lower trim query summary := by
  cases query with
  | none => simp [needleOf, IsNamed, isExact]
  | some q =>
    by_cases empty : lower (trim q) = ""
    · simp [needleOf, IsNamed, isExact, empty]
    · simp only [needleOf, IsNamed, isExact, empty, Option.map_some, Option.filter, Option.any_some,
        takeWhile_reverse_eq_iff, Option.mem_def, Option.some.injEq, beq_iff_eq, Bool.or_eq_true,
        exists_eq_left', String.toList_inj, ne_eq, not_false_eq_true, true_and,
        decide_true, if_true]
      tauto

/-- **The pages of a search are the packages that match, each once and in order.** -/
theorem pages_of_search {all : List PackageSummary} (distinct : (all.map PackageSummary.name).Nodup)
    (query : Option String) (perPage : ℕ) {pages : ℕ} (enough : all.length ≤ pages) :
    let listed := (List.range pages).flatMap fun i =>
    (search lower trim all query (i + 1) perPage).1
    listed.Perm (all.filter fun summary => Matches lower trim query summary) ∧
      listed.Pairwise (Precedes lower trim query) ∧
      ∀ page, (search lower trim all query page perPage).2 = listed.length := by
  let sorted := ordered lower (needleOf lower trim query) all
  have matching : kept lower (needleOf lower trim query) all =
      all.filter fun summary => Matches lower trim query summary :=
    List.filter_congr fun summary _ => by
      rw [Bool.eq_iff_iff, all_matchesNeedle_iff, decide_eq_true_iff]
  have perm : sorted.Perm (all.filter fun summary => Matches lower trim query summary) :=
    matching ▸ sortDesc_perm ..
  have covers : sorted.length ≤ pages * min (max 1 perPage) MAX_PER_PAGE := by
    have few : sorted.length ≤ pages :=
      (perm.length_eq.trans_le (List.length_filter_le ..)).trans enough
    exact few.trans (Nat.le_mul_of_pos_right _ (by simp [MAX_PER_PAGE]))
  have whole : ((List.range pages).flatMap fun i =>
      (search lower trim all query (i + 1) perPage).1) = sorted := by
    refine Eq.trans ?_ ((flatMap_pages sorted _ pages).trans (List.take_of_length_le covers))
    simp [search, sorted]
  have names : (sorted.map PackageSummary.name).Nodup :=
    (perm.map _).nodup_iff.mpr (distinct.sublist (List.filter_sublist.map _))
  simp only [whole]
  refine ⟨perm, ?_, fun _ => rfl⟩
  refine (List.pairwise_map.mp names).imp₂ (fun a b ne le => ?_) (pairwise_sortDesc ..)
  -- What has another name has another key, so the order is strict.
  have lt := lt_of_le_of_ne le fun same =>
    ne (by simpa using congrArg (fun key => (ofLex (ofLex key).2).2) same.symm)
  simp only [Prod.Lex.toLex_lt_toLex, Bool.lt_iff, OrderDual.toDual_lt_toDual] at lt
  simp only [Precedes, ← isExact_needleOf_iff]
  grind

/-- The package that has the name comes before a newer one that only mentions it; the third one does
not match. -/
theorem pages_of_search_http :
    let all : List PackageSummary := [⟨"@net/client", some "An HTTP client", none, [], 3⟩,
      ⟨"@net/http", none, none, [], 1⟩, ⟨"@data/json", some "JSON", none, ["parser"], 2⟩]
    let lower text := String.ofList (text.toList.map Char.toLower)
    let trim text := String.ofList (Text.trim (· = ' ') text.toList)
    let listed := (List.range 3).flatMap fun i =>
    (search lower trim all (some " Http ") (i + 1) 1).1
    listed.map PackageSummary.name = ["@net/http", "@net/client"] ∧
      listed.Perm (all.filter fun summary => Matches lower trim (some " Http ") summary) :=
  ⟨by decide +kernel, (pages_of_search _ _ (by decide) _ 1 (by decide)).1⟩

end Catalog

end Muli.Luat
