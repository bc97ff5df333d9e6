/-
**Publishes and yanks of one crate at the same time.**

The index file is read and replaced in two steps, and the look for a version in it comes long before
the line of the version is written.

* `index_kept` — **under these conditions every answered publish has exactly one line, no line is
  lost, no version has two, and every line has the checksum of its crate file.**
-/

import Muli.Interaction.Answering
import Muli.Interaction.CheckThenAct
import Muli.Registry.Cargo.Names

namespace Muli.Cargo

open Interaction List Option IndexLine CargoStore

/-! ### Requests for one crate -/

inductive CrateRequest where
  | publish (body : Bytes)
  | yank (version : String)
  | unyank (version : String)
deriving DecidableEq, Repr

def serve (config : CargoConfig) (name : String) : CrateRequest → CargoProg Response
  | .publish body => publish config body
  | .yank version => yank config name version
  | .unyank version => unyank config name version

abbrev CargoAnswer := Except Response Response

abbrev CargoThreads : Interface := CargoCalls.answering CargoAnswer

abbrev CargoHistory := List (ℕ × Event CargoThreads CargoStore Unit)

def threadHandle : Handler CargoThreads CargoStore Unit := calmHandle.answering

def requestThread (config : CargoConfig) (name : String) (request : CrateRequest) :
    Prog CargoThreads Unit :=
  (serve config name request).run.answering

def CrateRequest.parsed (config : CargoConfig) : CrateRequest → Option ParsedPublish
  | .publish body => (parsePublishBody config.parseMetadata body).toOption
  | _ => none

/-! ### What a request has read -/

/-- The lines that were looked at, the lines that were loaded, the crate file that was stored, and
whether the index was written. -/
structure RequestPhase where
  checked : Option (List IndexLine) := none
  loaded : Option (List IndexLine) := none
  stored : Option (String × Bytes) := none
  written : Bool := false

/-- The lines of an index file that is read; a file that is missing has none. -/
def linesRead : Except StorageError (List IndexLine) → Option (List IndexLine)
  | .ok lines => some lines
  | .error .notFound => some []
  | .error _ => none

def checks : (call : CargoCall) → call.Answer → Option (List IndexLine)
  | .readIndex _, answer => linesRead answer
  | _, _ => none

def loads : (call : CargoCall) → call.Answer → Option (List IndexLine)
  | .loadIndex _, answer => linesRead answer
  | _, _ => none

def stores : (call : CargoCall) → call.Answer → Option (String × Bytes)
  | .storeCrate _ version data, .ok _ => some (version, data)
  | _, _ => none

def writesIndex : (call : CargoCall) → call.Answer → Bool
  | .writeIndex .., .ok _ => true
  | _, _ => false

def RequestPhase.next (phase : RequestPhase) (call : CargoCall) (answer : call.Answer) :
    RequestPhase where
  checked := (checks call answer).or phase.checked
  loaded := (loads call answer).or phase.loaded
  stored := (stores call answer).or phase.stored
  written := writesIndex call answer || phase.written

def CargoCall.IsOf (name : String) : CargoCall → Prop
  | readIndex other | loadIndex other | storeCrate other .. | writeIndex other _ => other = name
  | _ => True

/-- The accesses of a publish that change files. -/
def PublishPermits (config : CargoConfig) (parsed : ParsedPublish) (phase : RequestPhase) :
    CargoCall → Prop
  | .storeCrate name version data =>
    version = parsed.metadata.version ∧ data = parsed.crateData ∧ validateCrateName name ∧
      ∃ lines ∈ phase.checked, version ∉ versions lines
  | .writeIndex name lines =>
    phase.stored = some (parsed.metadata.version, parsed.crateData) ∧
      validateCrateName name ∧ config.isSemver parsed.metadata.version ∧
      (∃ seen ∈ phase.checked, parsed.metadata.version ∉ versions seen) ∧
      ∃ loaded ∈ phase.loaded, lines = loaded ++
        [.entry (indexEntry parsed.metadata (config.sha256 parsed.crateData))]
  | _ => True

/-- The accesses of a yank that change files. -/
def YankPermits (version : String) (yanked : Bool) (phase : RequestPhase) : CargoCall → Prop
  | .storeCrate .. => False
  | .writeIndex _ lines => ∃ loaded ∈ phase.loaded, lines = withYanked version yanked loaded
  | _ => True

def CrateRequest.Permits (config : CargoConfig) (phase : RequestPhase) (call : CargoCall) :
    CrateRequest → Prop
  | .publish body => ∃ parsed, parsePublishBody config.parseMetadata body = .ok parsed ∧
      PublishPermits config parsed phase call
  | .yank version => YankPermits version true phase call
  | .unyank version => YankPermits version false phase call

/-- Without failures the index file of a crate is there or missing. -/
def Calm : (call : CargoCall) → call.Answer → Prop
  | .readIndex name, answer | .loadIndex name, answer =>
    validateCrateName name → (linesRead answer).isSome
  | _, _ => True

def requestProtocol (config : CargoConfig) (name : String) (request : CrateRequest) :
    Protocol CargoCalls RequestPhase where
  expects := Calm
  permits phase call := call.IsOf name ∧ request.Permits config phase call
  next := RequestPhase.next

/-- A publish that answers with success has written the index. -/
def MayAnswer : CrateRequest → RequestPhase → CargoAnswer → Prop
  | .publish _, phase, .ok _ => phase.written = true
  | _, _, _ => True

section Adherence

variable {config : CargoConfig} {name : String} {request : CrateRequest}

theorem keeps_of_quota {ε α : Type} {p : ExceptT ε (Prog CargoCalls) α}
    (permitted : ∀ phase quota, request.Permits config phase (.quota quota))
    (only : p.run.CallsOnly (I := CargoCalls) fun call => ∃ quota, call = .quota quota) :
    Keeps (requestProtocol config name request) p := by
  refine .ofCallsOnly only ?_ ?_
  · rintro phase _ ⟨quota, rfl⟩
    exact ⟨trivial, permitted phase quota⟩
  · rintro _ _ answer ⟨quota, rfl⟩
    rfl

theorem validateNameAndVersion_adheres (version : String) (phase : RequestPhase) :
    Adheres (requestProtocol config name request) (validateNameAndVersion config name version)
      (fun _ phase' => phase' = phase ∧ validateCrateName name ∧ config.isSemver version)
      phase := by
  unfold validateNameAndVersion
  split_ifs with badName badVersion
  · exact .throw _
  · exact .throw _
  · exact .pure ⟨rfl, by simpa using badName, by simpa using badVersion⟩

section Publish

variable {body : Bytes} {parsed : ParsedPublish}
  (isParsed : parsePublishBody config.parseMetadata body = .ok parsed)
  (isName : parsed.metadata.name = name)
include isParsed

variable {phase : RequestPhase}

theorem permits_publish (isOf : call.IsOf name)
    (permitted : PublishPermits config parsed phase call) :
    (requestProtocol config name (.publish body)).permits phase call :=
  ⟨isOf, parsed, isParsed, permitted⟩

theorem checkVersion_adheres (valid : validateCrateName name) (version : String)
    (phase : RequestPhase) :
    Adheres (requestProtocol config name (.publish body)) (checkVersion name version)
      (fun _ phase' => ∃ lines, version ∉ versions lines ∧
      phase' = { phase with checked := some lines }) phase := by
  refine .call (permits_publish isParsed rfl trivial) fun answer expected => ?_
  cases answer with
  | ok lines =>
    dsimp only
    split_ifs with listed
    · exact .throw _
    · exact .pure ⟨lines, listed, rfl⟩
  | error error =>
    cases error with
    | notFound => exact .pure ⟨[], not_mem_nil, rfl⟩
    | _ => cases expected valid

theorem appendIndexEntry_adheres (valid : validateCrateName name)
    (stored : phase.stored = some (parsed.metadata.version, parsed.crateData))
    (semver : config.isSemver parsed.metadata.version)
    (unlisted : ∃ seen ∈ phase.checked, parsed.metadata.version ∉ versions seen) :
    Adheres (requestProtocol config name (.publish body))
      (appendIndexEntry name (.entry (indexEntry parsed.metadata (config.sha256 parsed.crateData))))
      (fun result phase' => ∀ done, result = .ok done → phase'.written = true) phase := by
  have writes : ∀ loaded, Adheres (requestProtocol config name (.publish body))
      (query (.writeIndex name (loaded ++
        [.entry (indexEntry parsed.metadata (config.sha256 parsed.crateData))])))
      (fun result phase' => ∀ done, result = .ok done → phase'.written = true)
      { phase with loaded := some loaded } := by
    intro loaded
    refine .lift ⟨permits_publish isParsed rfl ⟨stored, valid, semver, unlisted, loaded, rfl, rfl⟩,
      ?_⟩
    rintro _ _ _ rfl
    rfl
  refine .call (permits_publish isParsed trivial trivial) fun made _ => ?_
  cases made with
  | error _ =>
    refine .pure ?_
    rintro _ ⟨⟩
  | ok _ =>
    refine .call (permits_publish isParsed rfl trivial) fun answer expected => ?_
    cases answer with
    | ok lines => exact writes lines
    | error error =>
      cases error with
      | notFound => exact writes []
      | _ => cases expected valid

include isName in
/-- **A publish writes what it has been asked for, after it has looked for the version, and appends
to what it has loaded.** -/
theorem publishCrate_adheres : Adheres (requestProtocol config name (.publish body))
      (publishCrate config parsed.metadata parsed.crateData) (fun _ phase => phase.written = true)
      {} := by
  have quotas : ∀ phase quota, (CrateRequest.publish body).Permits config phase (.quota quota) :=
    fun phase quota => ⟨parsed, isParsed, trivial⟩
  unfold publishCrate
  rw [isName]
  refine (validateNameAndVersion_adheres _ _).andThen ?_
  rintro _ _ ⟨rfl, valid, semver⟩
  refine (checkVersion_adheres isParsed valid _ _).andThen ?_
  rintro _ _ ⟨lines, unlisted, rfl⟩
  refine (keeps_of_quota quotas (reserve_callsOnly (fun call => ⟨call, rfl⟩) _ _)).andThen
    fun _ => ?_
  refine .call (permits_publish isParsed rfl ⟨rfl, rfl, valid, lines, rfl, unlisted⟩)
    fun answer _ => ?_
  cases answer with
  | error _ =>
    exact (keeps_of_quota quotas (adjust_callsOnly (fun call => ⟨call, rfl⟩) _ _)).andThen
      fun _ => .throw _
  | ok _ =>
    refine (appendIndexEntry_adheres isParsed valid rfl semver ⟨lines, rfl, unlisted⟩).andThen ?_
    intro result phase written
    cases result with
    | ok done => exact .pure (written done rfl)
    | error _ => exact .throw _

end Publish

section Yank

variable {request : CrateRequest} {version : String} {yanked : Bool}
  (isYank : ∀ phase call, YankPermits version yanked phase call → request.Permits config phase call)
include isYank

theorem updateIndexVersion_adheres (phase : RequestPhase) :
    Adheres (requestProtocol config name request) (updateIndexVersion name version yanked)
      (fun _ _ => True) phase := by
  refine .call ⟨rfl, isYank _ _ trivial⟩ fun answer _ => ?_
  cases answer with
  | error _ => exact .pure trivial
  | ok lines =>
    dsimp only
    split_ifs
    · refine .call ⟨rfl, isYank _ _ ⟨lines, rfl, rfl⟩⟩ fun written _ => ?_
      cases written <;> exact .pure trivial
    · exact .pure trivial

theorem setYanked_adheres (failure : String) :
    Adheres (requestProtocol config name request) (setYanked config yanked failure name version)
      (fun _ _ => True) {} := by
  refine (validateNameAndVersion_adheres _ _).andThen ?_
  rintro _ _ ⟨rfl, -, -⟩
  refine (updateIndexVersion_adheres isYank _).andThen fun result phase _ => ?_
  rcases result with error | (_ | _)
  · exact .throw _
  · exact .throw _
  · exact .pure trivial

end Yank

/-- **A request writes what it may.** -/
theorem requestThread_obeys (ofCrate : ∀ parsed ∈ request.parsed config,
    parsed.metadata.name = name) : (requestThread config name request).Obeys
      ((requestProtocol config name request).answering (MayAnswer request))
      (fun _ _ => True) {} := by
  refine .answering ?_
  cases request with
  | publish body =>
    cases isParsed : parsePublishBody config.parseMetadata body with
    | error error =>
      dsimp only [serve, publish]
      rw [isParsed]
      exact trivial
    | ok parsed =>
      have isName : parsed.metadata.name = name := by
        refine ofCrate parsed ?_
        dsimp only [CrateRequest.parsed]
        rw [isParsed]
        rfl
      dsimp only [serve, publish]
      rw [isParsed]
      refine .mono (publishCrate_adheres isParsed isName) fun outcome phase written => ?_
      cases outcome with
      | ok response => exact written response rfl
      | error stop => trivial
  | _ =>
    exact .mono (setYanked_adheres (fun _ _ => id) _)
      fun _ _ _ => trivial

theorem isSome_linesRead {store : CargoStore} (valid : validateCrateName other) :
    (linesRead (store.readIndex true other)).isSome := by
  obtain isRead | ⟨isRead, -⟩ | ⟨never, -⟩ := readIndex_cases valid true
  · rw [isRead]
    rfl
  · rw [isRead]
    rfl
  · cases never

theorem requestProtocol_meets (request : CrateRequest) :
    threadHandle.Meets ((requestProtocol config name request).answering (MayAnswer request)) := by
  refine .answering ?_
  intro _ call store
  cases call with
  | readIndex | loadIndex => exact isSome_linesRead
  | _ => trivial

end Adherence

/-! ### What the accesses of requests that do not interfere do -/

/-- The entry of a line, whatever its flag. -/
def IndexLine.unflagged : IndexLine → Option IndexEntry
  | .entry described => some { described with yanked := false }
  | .text _ => none

/-- The entries of an index file, in order and whatever their flags. -/
def listing (lines : List IndexLine) : List IndexEntry := lines.filterMap unflagged

theorem versions_eq_map_listing (lines : List IndexLine) :
    versions lines = (listing lines).map IndexEntry.vers := by
  unfold versions listing
  rw [map_filterMap]
  refine filterMap_congr fun line _ => ?_
  cases line <;> rfl

theorem unflagged_setYanked (version : String) (yanked : Bool) (line : IndexLine) :
    (line.setYanked version yanked).unflagged = line.unflagged := by
  cases line with
  | text _ => rfl
  | entry described =>
    dsimp only [IndexLine.setYanked, IndexLine.unflagged]
    split_ifs <;> rfl

theorem listing_withYanked (version : String) (yanked : Bool) (lines : List IndexLine) :
    listing (withYanked version yanked lines) = listing lines := by
  unfold listing withYanked
  rw [filterMap_map]
  have same : IndexLine.unflagged ∘ IndexLine.setYanked version yanked = IndexLine.unflagged :=
    funext (unflagged_setYanked version yanked)
  rw [same, filterMap_filter]
  refine filterMap_congr fun line _ => ?_
  cases line with
  | entry described => rfl
  | text line => split_ifs <;> rfl

theorem linesOf_of_writes (store : CargoStore) (name : String) (lines : List IndexLine) :
    { store with index := store.index.set (indexPrefix name) lines }.linesOf name = lines := by
  unfold linesOf
  rw [Assoc.get_set_self]
  rfl

/-- **What an access does**: it stores the crate file of a version that is not listed, appends a
line whose crate file is stored, or sets a flag. -/
inductive Moves (config : CargoConfig) (name : String) (store store' : CargoStore) : Prop
  | same (files : SameFiles store store')
  | stores {version : String} {contents : Bytes} (valid : validateCrateName name)
      (unlisted : version ∉ versions (store.linesOf name))
      (isAfter : store' = { store with
        crates := store.crates.set (crateFile name version) contents })
  | appends {line : IndexEntry} {data : Bytes} (semver : config.isSemver line.vers)
      (component : validatePathComponent line.vers)
      (unlisted : line.vers ∉ versions (store.linesOf name))
      (stored : store.crates.get (crateFile name line.vers) = some data)
      (hash : config.sha256 data = line.cksum)
      (isAfter : store' = { store with
        index := store.index.set (indexPrefix name) (store.linesOf name ++ [.entry line]) })
  | yanks {version : String} {yanked : Bool}
      (isAfter : store' = { store with
        index := store.index.set (indexPrefix name)
          (withYanked version yanked (store.linesOf name)) })

namespace Moves

variable {config : CargoConfig} {name : String} {store store' : CargoStore}

section

variable (moves : Moves config name store store')
include moves

theorem listing_prefix :
    listing (store.linesOf name) <+: listing (store'.linesOf name) := by
  cases moves with
  | same files => rw [linesOf_of_sameFiles files]
  | stores valid unlisted isAfter => rw [isAfter]; rfl
  | appends semver component unlisted stored hash isAfter => grind [linesOf_of_writes, listing]
  | yanks isAfter => rw [isAfter, linesOf_of_writes, listing_withYanked]

theorem nodup
    (once : (versions (store.linesOf name)).Nodup) : (versions (store'.linesOf name)).Nodup := by
  cases moves with
  | same files => rwa [linesOf_of_sameFiles files]
  | stores valid unlisted isAfter => rw [isAfter]; exact once
  | appends semver component unlisted stored hash isAfter =>
    rw [isAfter, linesOf_of_writes, versions_append_entry]
    exact once.append (nodup_singleton _) (disjoint_singleton.mpr unlisted)
  | yanks isAfter => rwa [isAfter, linesOf_of_writes, versions_eq_map_listing, listing_withYanked,
      ← versions_eq_map_listing]

theorem served (served : Served config name store) :
    Served config name store' := by
  cases moves with
  | same files => exact served.of_sameFiles files
  | stores valid unlisted isAfter =>
    rw [isAfter]
    exact served.of_stores valid unlisted _
  | appends semver component unlisted stored hash isAfter =>
    rw [isAfter]
    exact served.of_appends semver component stored hash
  | @yanks version yanked isAfter =>
    rw [isAfter]
    intro described listed
    rw [linesOf_of_writes] at listed
    obtain ⟨line, isLine, isDescribed⟩ := mem_map.mp listed
    have isListed : line ∈ store.linesOf name := mem_of_mem_filter isLine
    cases line with
    | text _ => cases isDescribed
    | entry before =>
      cases isDescribed
      have isServed := served before isListed
      split_ifs <;> exact isServed

end

end Moves

/-! ### Requests that do not interfere -/

def linesWritten : CargoThreads.Op → Option (List IndexLine)
  | .inl (.writeIndex _ lines) => some lines
  | _ => none

def crateWritten : CargoThreads.Op → Option String
  | .inl (.storeCrate _ version _) => some version
  | _ => none

/-- The version whose crate file or last line an access writes. -/
def versionWritten (op : CargoThreads.Op) : Option String :=
  (crateWritten op).or ((linesWritten op).bind fun lines => lines.getLast?.bind vers)

section Conditions

variable (earlier : CargoHistory) (event : ℕ × Event CargoThreads CargoStore Unit)

/-- Since its request has looked for the version, no index with the version was written. -/
def Unclaimed : Prop :=
  ∀ version ∈ versionWritten event.2.op,
    ∀ found ∈ lastRead threadHandle (readsAnswering checks) event.1 earlier, ∀ other ∈ found.2.2,
      ∀ lines ∈ linesWritten other.2.op, version ∉ versions lines
deriving Decidable

/-- Since its request has loaded the index, none was written. -/
def FreshLoad : Prop :=
  (linesWritten event.2.op).isSome →
    ∀ found ∈ lastRead threadHandle (readsAnswering loads) event.1 earlier, ∀ other ∈ found.2.2,
      linesWritten other.2.op = none
deriving Decidable

/-- Since its request has stored its crate file, no other one of the version was stored. -/
def OwnCrate : Prop :=
  (linesWritten event.2.op).isSome →
    ∀ found ∈ lastRead threadHandle (readsAnswering stores) event.1 earlier, ∀ other ∈ found.2.2,
      crateWritten other.2.op ≠ some found.1.1
deriving Decidable

/-- **No other request interferes with an access.** -/
def Undisturbed : Prop := Unclaimed earlier event ∧ FreshLoad earlier event ∧ OwnCrate earlier event
deriving Decidable

end Conditions

section Runs

def cratePool (config : CargoConfig) (name : String) (requests : List CrateRequest)
    (store : CargoStore) : Pool CargoThreads CargoStore :=
  ⟨requests.map (requestThread config name), store⟩

def crateTrace (config : CargoConfig) (name : String) (requests : List CrateRequest)
    (store : CargoStore) (schedule : List (ℕ × Unit)) : CargoHistory :=
  (cratePool config name requests store).trace threadHandle schedule

def crateFinal (config : CargoConfig) (name : String) (requests : List CrateRequest)
    (store : CargoStore) (schedule : List (ℕ × Unit)) : CargoStore :=
  endState threadHandle store (crateTrace config name requests store schedule)

variable {config : CargoConfig} {name : String} {requests : List CrateRequest} {store : CargoStore}
  {schedule : List (ℕ × Unit)}

theorem crateTrace_chained :
    Chained threadHandle store (crateTrace config name requests store schedule) :=
  Pool.trace_chained (cratePool config name requests store) schedule

/-- What a request has read; the phases of all requests move alike. -/
def requestTracker : Protocol CargoThreads RequestPhase :=
  Protocol.answering
    { expects := fun _ _ => True, permits := fun _ _ => True, next := RequestPhase.next }
    fun _ _ => True

def phaseOf (i : ℕ) (earlier : CargoHistory) : RequestPhase :=
  phaseAfter threadHandle requestTracker i {} earlier

variable {event : Event CargoThreads CargoStore Unit}

theorem request_permits
    (ofCrate : ∀ request ∈ requests, ∀ parsed ∈ request.parsed config, parsed.metadata.name = name)
    (split : crateTrace config name requests store schedule = earlier ++ (i, event) :: later) :
    ∃ request, requests[i]? = some request ∧
      ((requestProtocol config name request).answering (MayAnswer request)).permits
        (phaseOf i earlier) event.op := by
  obtain ⟨thread, isThread, permits⟩ := Pool.permits_at requestTracker split
  obtain ⟨request, isRequest, rfl⟩ := map_eq_some_iff.mp (getElem?_map.symm.trans isThread)
  exact ⟨request, isRequest, permits _ rfl (requestProtocol_meets request)
    (requestThread_obeys (ofCrate _ (mem_of_getElem? isRequest)))⟩

/-! ### What was read still holds -/

theorem linesOf_after (event : Event CargoThreads CargoStore Unit) (name : String) :
    (event.after threadHandle).linesOf name = event.before.linesOf name ∨
      ∃ lines ∈ linesWritten event.op, (event.after threadHandle).linesOf name = lines := by
  obtain ⟨before, _, op⟩ := event
  cases op with
  | inr answer => exact .inl rfl
  | inl call =>
    have effect : Effect before (Event.after threadHandle ⟨before, (), .inl call⟩) call :=
      effect_cargoHandle {} call before
    unfold linesOf
    cases effect with
    | neither index | stores index => exact .inl (by rw [index])
    | @writes other lines index =>
      rw [index]
      by_cases same : indexPrefix other = indexPrefix name
      · refine .inr ⟨lines, rfl, ?_⟩
        rw [same, Assoc.get_set_self]
        rfl
      · exact .inl (by rw [Assoc.get_set_of_ne same])

variable {data : Bytes}

theorem crate_after (stored : event.before.crates.get path = some data)
    (other : ∀ name version contents, event.op = .inl (.storeCrate name version contents) →
      crateFile name version ≠ path) :
    (event.after threadHandle).crates.get path = some data := by
  obtain ⟨before, _, op⟩ := event
  cases op with
  | inr answer => exact stored
  | inl call =>
    have effect : Effect before (Event.after threadHandle ⟨before, (), .inl call⟩) call :=
      effect_cargoHandle {} call before
    cases effect with
    | neither index crates => rwa [crates]
    | stores index crates => rwa [crates, Assoc.get_set_of_ne (other _ _ _ rfl)]
    | writes index crates => rwa [crates]

variable {lines : List IndexLine}

theorem linesOf_of_linesRead
    (isRead : linesRead (store.readIndex true name) = some lines) : store.linesOf name = lines := by
  unfold readIndex indexPath at isRead
  unfold linesOf
  cases component : validatePathComponent name with
  | false =>
    rw [component] at isRead
    cases isRead
  | true =>
    rw [component] at isRead
    change linesRead (read true store.index (indexPrefix name)) = some lines at isRead
    unfold CargoStore.read at isRead
    cases found : store.index.get (indexPrefix name) with
    | _ =>
      rw [found] at isRead
      exact some.inj isRead

def IsOfCrate (name : String) (op : CargoThreads.Op) : Prop := ∀ call, op = .inl call →
  call.IsOf name

theorem linesOf_of_reads (isOf : IsOfCrate name event.op)
    (isRead : readsAnswering checks event.op (event.answer threadHandle) = some lines ∨
      readsAnswering loads event.op (event.answer threadHandle) = some lines) :
    (event.after threadHandle).linesOf name = lines := by
  obtain ⟨before, _, op⟩ := event
  cases op with
  | inr answer => exact isRead.elim nofun nofun
  | inl call =>
    cases call with
    | readIndex other =>
      obtain rfl : other = name := isOf _ rfl
      exact linesOf_of_linesRead (isRead.resolve_right nofun)
    | loadIndex other =>
      obtain rfl : other = name := isOf _ rfl
      exact linesOf_of_linesRead (isRead.resolve_left nofun)
    | _ => exact isRead.elim nofun nofun

variable {version : String}

theorem crate_of_stores (isOf : IsOfCrate name event.op)
    (isStored : readsAnswering stores event.op (event.answer threadHandle) = some (version, data)) :
    validatePathComponent version ∧
      (event.after threadHandle).crates.get (crateFile name version) = some data := by
  obtain ⟨before, _, op⟩ := event
  cases op with
  | inr answer => cases isStored
  | inl call =>
    cases call with
    | storeCrate other version' data' =>
      obtain rfl : other = name := isOf _ rfl
      change stores (.storeCrate other version' data')
        (before.storeCrate .done other version' data').1 = some (version, data) at isStored
      change _ ∧ (before.storeCrate .done other version' data').2.crates.get _ = _
      rcases storeCrate_cases .done version' data' with
        ⟨error, failed⟩ | ⟨contents, error, torn⟩ | ⟨component, stored⟩
      · rw [failed] at isStored
        cases isStored
      · rw [torn] at isStored
        cases isStored
      · rw [stored] at isStored ⊢
        obtain ⟨⟩ := some.inj isStored
        exact ⟨component, Assoc.get_set_self ..⟩
    | _ => cases isStored

section Step

variable
  (ofCrate : ∀ request ∈ requests, ∀ parsed ∈ request.parsed config, parsed.metadata.name = name)
  (calm : AtEach Undisturbed (crateTrace config name requests store schedule))
  {earlier later : CargoHistory} {i : ℕ} {event : Event CargoThreads CargoStore Unit}
  (split : crateTrace config name requests store schedule = earlier ++ (i, event) :: later)
include ofCrate split

theorem isOfCrate_event : IsOfCrate name event.op := by
  rintro call isCall
  obtain ⟨request, -, permitted⟩ := request_permits ofCrate split
  rw [isCall] at permitted
  exact permitted.1

theorem isOfCrate_past (isPast : (j, past) ∈ earlier) : IsOfCrate name past.op := by
  obtain ⟨before, after, rfl⟩ := append_of_mem isPast
  rw [append_assoc, cons_append] at split
  exact isOfCrate_event ofCrate split

/-- **What a request has read still holds**, if the accesses since then keep it. -/
theorem holds_since {V : Type} (reads : (call : CargoCall) → call.Answer → Option V)
    (value : RequestPhase → Option V) (start : value {} = none)
    (tracks : ∀ phase call answer, value (phase.next call answer) =
      (reads call answer).or (value phase))
    {read : V} (isRead : read ∈ value (phaseOf i earlier)) {P : CargoStore → Prop}
    (established : ∀ past : Event CargoThreads CargoStore Unit, IsOfCrate name past.op →
      readsAnswering reads past.op (past.answer threadHandle) = some read →
      P (past.after threadHandle))
    (keeps : ∀ found ∈ lastRead threadHandle (readsAnswering reads) i earlier, found.1 = read →
      ∀ other ∈ found.2.2, IsOfCrate name other.2.op → P other.2.before →
        P (other.2.after threadHandle)) : P event.before := by
  have isLast : value (phaseOf i earlier) = _ :=
    value_phaseAfter (readsAnswering reads) value (Protocol.tracks_answering tracks) earlier
  rw [start, or_none] at isLast
  obtain ⟨⟨_, check, since⟩, found, rfl⟩ := map_eq_some_iff.mp (isLast.symm.trans isRead)
  obtain ⟨⟨before, isSplit⟩, isRead⟩ := lastRead_split found
  have chained := split ▸ crateTrace_chained
  have isOf : ∀ past ∈ (i, check) :: since, IsOfCrate name past.2.op := fun past mem =>
    isOfCrate_past ofCrate split (isSplit ▸ mem_append_right _ mem)
  exact chained.since_lastRead found (established check (isOf _ mem_cons_self) isRead)
    fun other mem => keeps _ found rfl other mem (isOf _ (.tail _ mem))

include calm

/-- **A version is not listed where its crate file or its line is written.** -/
theorem not_listed (isVersion : versionWritten event.op = some version)
    {seen : List IndexLine} (isChecked : seen ∈ (phaseOf i earlier).checked)
    (unlisted : version ∉ versions seen) : version ∉ versions (event.before.linesOf name) := by
  refine holds_since ofCrate split checks RequestPhase.checked rfl (fun _ _ _ => rfl) isChecked
    (P := fun current => version ∉ versions (current.linesOf name)) ?_ ?_
  · intro past isOf isRead
    rwa [linesOf_of_reads isOf (.inl isRead)]
  · intro found isLast _ other mem _ missing
    rcases linesOf_after other.2 name with same | ⟨lines, isWritten, isLines⟩
    · rwa [same]
    · rw [isLines]
      exact (calm.of_split split).1 version isVersion found isLast other mem lines isWritten

/-- **The index is as it was loaded where it is written.** -/
theorem linesOf_eq_loaded (writes : (linesWritten event.op).isSome) {loaded : List IndexLine}
    (isLoaded : loaded ∈ (phaseOf i earlier).loaded) : event.before.linesOf name = loaded := by
  refine holds_since ofCrate split loads RequestPhase.loaded rfl (fun _ _ _ => rfl) isLoaded
    (P := fun current => current.linesOf name = loaded) ?_ ?_
  · exact fun past isOf isRead => linesOf_of_reads isOf (.inr isRead)
  · intro found isLast _ other mem _ same
    rcases linesOf_after other.2 name with unchanged | ⟨lines, isWritten, -⟩
    · rw [unchanged, same]
    · rw [(calm.of_split split).2.1 writes found isLast other mem] at isWritten
      cases isWritten

/-- **The crate file is the one its request has stored where the index is written.** -/
theorem crate_eq_stored (valid : validateCrateName name) (writes : (linesWritten event.op).isSome)
    (isStored : (version, data) ∈ (phaseOf i earlier).stored) : validatePathComponent version ∧
      event.before.crates.get (crateFile name version) = some data := by
  refine holds_since ofCrate split stores RequestPhase.stored rfl (fun _ _ _ => rfl) isStored
    (P := fun current => validatePathComponent version ∧
      current.crates.get (crateFile name version) = some data) ?_ ?_
  · exact fun past isOf isRead => crate_of_stores isOf isRead
  · rintro found isLast isFound other mem isOf ⟨component, there⟩
    refine ⟨component, crate_after there ?_⟩
    intro name' version' contents isStore same
    obtain rfl : name' = name := isOf _ isStore
    obtain ⟨-, rfl⟩ := crateFile_injective valid valid same
    refine (calm.of_split split).2.2 writes found isLast other mem ?_
    rw [isStore, isFound]
    rfl

/-- **A crate file is stored before its version is listed.** -/
theorem moves_of_storeCrate (stores : event.op = .inl (.storeCrate other version data)) :
    Moves config name event.before (event.after threadHandle) := by
  obtain rfl : other = name := isOfCrate_event ofCrate split _ stores
  obtain ⟨request, -, permitted⟩ := request_permits ofCrate split
  rw [stores] at permitted
  cases request with
  | publish body =>
    obtain ⟨-, parsed, -, rfl, rfl, valid, seen, isChecked, unlisted⟩ := permitted
    have isVersion : versionWritten event.op = some parsed.metadata.version := by rw [stores]; rfl
    have missing := not_listed ofCrate calm split isVersion isChecked unlisted
    have isAfter : event.after threadHandle = (event.before.storeCrate .done other
        parsed.metadata.version parsed.crateData).2 := by
      unfold Event.after
      rw [stores]
      rfl
    rw [isAfter]
    rcases storeCrate_cases .done parsed.metadata.version parsed.crateData with
      ⟨error, failed⟩ | ⟨contents, error, torn⟩ | ⟨-, stored⟩
    · rw [failed]
      exact .same ⟨rfl, rfl⟩
    · rw [torn]
      exact .stores valid missing rfl
    · rw [stored]
      exact .stores valid missing rfl
  | _ => exact permitted.2.elim

/-- **What is written to the index is what it has, with one more line or another flag.** -/
theorem moves_of_writeIndex (writes : event.op = .inl (.writeIndex other lines)) :
    Moves config name event.before (event.after threadHandle) := by
  obtain rfl : other = name := isOfCrate_event ofCrate split _ writes
  obtain ⟨request, -, permitted⟩ := request_permits ofCrate split
  rw [writes] at permitted
  have isWrite : (linesWritten event.op).isSome := by rw [writes]; rfl
  have isAfter : event.after threadHandle = (event.before.writeIndex true other lines).2 := by
    unfold Event.after
    rw [writes]
    rfl
  have yanks : ∀ version yanked, YankPermits version yanked (phaseOf i earlier)
      (.writeIndex other lines) → Moves config other event.before { event.before with
        index := event.before.index.set (indexPrefix other) lines } := by
    rintro version yanked ⟨loaded, isLoaded, rfl⟩
    rw [← linesOf_eq_loaded ofCrate calm split isWrite isLoaded]
    exact .yanks rfl
  rw [isAfter]
  rcases writeIndex_cases true lines with ⟨error, failed⟩ | written
  · rw [failed]
    exact .same ⟨rfl, rfl⟩
  · rw [written]
    cases request with
    | publish body =>
      obtain ⟨-, parsed, -, isStored, valid, semver, ⟨seen, isChecked, unlisted⟩, loaded,
        isLoaded, rfl⟩ :=
        permitted
      have isVersion : versionWritten event.op = some parsed.metadata.version := by
        rw [writes]
        show bind (loaded ++ [_]).getLast? vers = _
        rw [getLast?_concat]
        rfl
      obtain ⟨component, stored⟩ := crate_eq_stored ofCrate calm split valid isWrite isStored
      have missing := not_listed ofCrate calm split isVersion isChecked unlisted
      rw [← linesOf_eq_loaded ofCrate calm split isWrite isLoaded]
      exact @Moves.appends _ _ _ _ (indexEntry parsed.metadata (config.sha256 parsed.crateData)) _
        semver component missing stored rfl rfl
    | _ => exact yanks _ _ permitted.2

/-- **Each access of requests that do not interfere.** -/
theorem moves_event : Moves config name event.before (event.after threadHandle) := by
  cases isOp : event.op with
  | inr answer =>
    refine .same ?_
    unfold Event.after
    rw [isOp]
    exact ⟨rfl, rfl⟩
  | inl call =>
    cases call with
    | storeCrate other version data => exact moves_of_storeCrate ofCrate calm split isOp
    | writeIndex other lines => exact moves_of_writeIndex ofCrate calm split isOp
    | _ =>
      refine .same ?_
      unfold Event.after
      rw [isOp]
      exact ⟨rfl, rfl⟩

end Step

/-! ### Whole runs -/

def succeeds : CargoThreads.Op → Bool
  | .inr (.ok _) => true
  | _ => false

def Answered (history : CargoHistory) (i : ℕ) : Prop :=
  ∃ event ∈ history, event.1 = i ∧ succeeds event.2.op = true
deriving Decidable

/-- **What holds of the index between two accesses.** -/
structure IndexKept (config : CargoConfig) (name : String) (start : CargoStore)
    (earlier : CargoHistory)
    (current : CargoStore) : Prop where
  served : Served config name current
  once : (versions (current.linesOf name)).Nodup
  fromStart : listing (start.linesOf name) <+: listing (current.linesOf name)
  fromPast : ∀ event ∈ earlier,
    listing ((event.2.after threadHandle).linesOf name) <+: listing (current.linesOf name)

theorem IndexKept.step {event : ℕ × Event CargoThreads CargoStore Unit}
    (moves : Moves config name event.2.before (event.2.after threadHandle))
    (kept : IndexKept config name start earlier event.2.before) :
    IndexKept config name start (earlier ++ [event]) (event.2.after threadHandle) where
  served := moves.served kept.served
  once := moves.nodup kept.once
  fromStart := kept.fromStart.trans moves.listing_prefix
  fromPast := by
    intro past mem
    rcases mem_append.mp mem with old | new
    · exact (kept.fromPast past old).trans moves.listing_prefix
    · simp_all

theorem mem_versions_of_begins (isPrefix : listing lines <+: listing lines')
    (listed : version ∈ versions lines) : version ∈ versions lines' := by
  rw [versions_eq_map_listing] at listed ⊢
  exact map_subset _ isPrefix.subset listed

variable {parsed : ParsedPublish}

theorem listed_of_written (isParsed : parsePublishBody config.parseMetadata body = .ok parsed)
    (permitted : ((requestProtocol config name (.publish body)).answering (MayAnswer
      (.publish body))).permits phase event.op)
    (before : ¬ phase.written = true)
    (after : (requestTracker.next phase event.op (event.answer threadHandle)).written = true) :
    parsed.metadata.version ∈ versions ((event.after threadHandle).linesOf name) := by
  obtain ⟨current, _, op⟩ := event
  cases op with
  | inr answer => exact absurd after before
  | inl call =>
    cases call with
    | writeIndex other lines =>
      obtain ⟨rfl, parsed', isParsed', -, -, -, -, loaded, -, isLines⟩ := permitted
      obtain rfl := Except.ok.inj (isParsed.symm.trans isParsed')
      change (writesIndex (.writeIndex other lines) (current.writeIndex true other lines).1 ||
        phase.written) = true at after
      change _ ∈ versions ((current.writeIndex true other lines).2.linesOf other)
      rcases writeIndex_cases true lines with ⟨error, failed⟩ | written
      · rw [failed] at after
        exact absurd after before
      · rw [written, linesOf_of_writes, isLines, versions_append_entry]
        exact mem_append_right _ mem_cons_self
    | _ => exact absurd after before

/-- **A publish that has answered has written its line.** -/
theorem exists_line_of_answered
    (ofCrate : ∀ request ∈ requests, ∀ parsed ∈ request.parsed config, parsed.metadata.name = name)
    (isRequest : requests[i]? = some (.publish body))
    (isParsed : parsePublishBody config.parseMetadata body = .ok parsed)
    (answered : Answered (crateTrace config name requests store schedule) i) :
    ∃ event ∈ crateTrace config name requests store schedule,
      parsed.metadata.version ∈ versions ((event.2.after threadHandle).linesOf name) := by
  obtain ⟨⟨j, answer⟩, isEvent, isThread, success⟩ := answered
  obtain rfl : j = i := isThread
  obtain ⟨earlier, later, split⟩ := append_of_mem isEvent
  obtain ⟨request, isRequest', permitted⟩ := request_permits ofCrate split
  obtain rfl := some.inj (isRequest.symm.trans isRequest')
  have isWritten : (phaseOf j earlier).written = true := by
    cases isOp : answer.op with
    | inl call =>
      rw [isOp] at success
      cases success
    | inr outcome =>
      rw [isOp] at permitted success
      cases outcome with
      | error response => cases success
      | ok response => exact permitted
  obtain ⟨before, write, rest, rfl, notYet, isWrite⟩ := exists_event_of_phaseAfter
    (Q := fun phase : RequestPhase => phase.written = true) Bool.false_ne_true isWritten
  rw [append_assoc, cons_append] at split
  refine ⟨_, split ▸ mem_append_right _ mem_cons_self, ?_⟩
  obtain ⟨request, isRequest', permits⟩ := request_permits ofCrate split
  obtain rfl := some.inj (isRequest.symm.trans isRequest')
  exact listed_of_written isParsed permits notYet isWrite

/-- **Publishes and yanks of one crate that do not interfere.** Whatever their order, every publish
that has answered with success has exactly one line in the index, no line is lost, no version has
two, and every line has the checksum of its crate file. -/
theorem index_kept (config : CargoConfig) (name : String) (requests : List CrateRequest)
    (ofCrate : ∀ request ∈ requests, ∀ parsed ∈ request.parsed config, parsed.metadata.name = name)
    {store : CargoStore} (served : Served config name store)
    (once : (versions (store.linesOf name)).Nodup) (schedule : List (ℕ × Unit))
    (calm : AtEach Undisturbed (crateTrace config name requests store schedule)) :
    (∀ i body parsed, requests[i]? = some (.publish body) →
      parsePublishBody config.parseMetadata body = .ok parsed →
      Answered (crateTrace config name requests store schedule) i →
        (versions ((crateFinal config name requests store schedule).linesOf name)).count
          parsed.metadata.version = 1) ∧ listing (store.linesOf name) <+:
      listing ((crateFinal config name requests store schedule).linesOf name) ∧
    (∀ event ∈ crateTrace config name requests store schedule,
      listing ((event.2.after threadHandle).linesOf name) <+:
        listing ((crateFinal config name requests store schedule).linesOf name)) ∧
    (versions ((crateFinal config name requests store schedule).linesOf name)).Nodup ∧
    Served config name (crateFinal config name requests store schedule) := by
  have kept : IndexKept config name store (crateTrace config name requests store schedule)
      (crateFinal config name requests store schedule) := by
    refine crateTrace_chained.concludes (P := IndexKept config name store) ?_ ?_
    · exact ⟨served, once, prefix_rfl, nofun⟩
    · exact fun earlier event later split => .step (moves_event ofCrate calm split)
  refine ⟨?_, kept.fromStart, kept.fromPast, kept.once, kept.served⟩
  intro i body parsed isRequest isParsed answered
  obtain ⟨event, member, listed⟩ := exists_line_of_answered ofCrate isRequest isParsed answered
  exact count_eq_one_of_mem kept.once (mem_versions_of_begins (kept.fromPast event member) listed)

end Runs

/-! ### Two runs -/

/-- A registry without a quota store, in which the metadata is a code for the version. -/
def versionsConfig : CargoConfig where
  tenantId := "tenant"
  quotaStore := false
  parseMetadata json := .ok { name := "foo", version := if json = [49] then "1.0.0" else "2.0.0" }
  isSemver _ := true
  sha256 data := toString data.length

def firstVersion : CrateRequest := .publish (encodePublish [49] [1])

def secondVersion : CrateRequest := .publish (encodePublish [50] [1, 2])

def turns (threads : List ℕ) : List (ℕ × Unit) := threads.map fun i => (i, ())

/-- **The second publish looks for its version while the first one runs**, and goes on when it has
ended; then the first version is yanked. -/
theorem index_kept_inTurn :
    (versions ((crateFinal versionsConfig "foo" [firstVersion, secondVersion, .yank "1.0.0"] {}
      (turns [0, 1, 0, 0, 0, 0, 0, 1, 1, 1, 1, 1, 2, 2, 2])).linesOf "foo")).count "2.0.0" = 1 := by
  have served : Served versionsConfig "foo" {} := by
    intro described listed
    cases listed
  have kept := index_kept versionsConfig "foo" [firstVersion, secondVersion, .yank "1.0.0"]
    (by decide +kernel) served (by decide) (turns [0, 1, 0, 0, 0, 0, 0, 1, 1, 1, 1, 1, 2, 2, 2])
    (by decide +kernel)
  exact kept.1 1 (encodePublish [50] [1, 2]) ⟨{ name := "foo", version := "2.0.0" }, [1, 2]⟩ rfl
    (by decide +kernel) (by decide +kernel)

/-- **Both publishes load the index before one of them writes it**: both answer with success, and
the index has one line. -/
theorem index_lost : Answered (crateTrace versionsConfig "foo" [firstVersion, secondVersion] {}
        (turns [0, 1, 0, 1, 0, 1, 0, 1, 0, 1, 0, 1])) 0 ∧
      Answered (crateTrace versionsConfig "foo" [firstVersion, secondVersion] {}
        (turns [0, 1, 0, 1, 0, 1, 0, 1, 0, 1, 0, 1])) 1 ∧
      versions ((crateFinal versionsConfig "foo" [firstVersion, secondVersion] {}
        (turns [0, 1, 0, 1, 0, 1, 0, 1, 0, 1, 0, 1])).linesOf "foo") = ["2.0.0"] := by
  decide +kernel

end Muli.Cargo
