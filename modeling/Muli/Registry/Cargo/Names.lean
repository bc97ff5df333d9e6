/-
**Crates whose names differ in case.**

The index file of a crate goes by its name in lower case, the crate files by the name as it is.
Crates whose names are alike in lower case share the index file and nothing else.

* `index_apart` — **along every sequence of publishes, a crate that shares its index file with no
  other one is served as the index says, and no publish of another crate changes its index.**
-/

import Muli.Registry.Cargo.Publish

namespace Muli.Cargo

open Interaction List CargoStore

/-- Accesses may fail, but the look into the index before a publish succeeds. -/
def readingHandle : Handler CargoCalls CargoStore CargoMoment
  | moment, .readIndex name, store => cargoHandle { moment with works := true }
      (.readIndex name) store
  | moment, call, store => cargoHandle moment call store

theorem effect_readingHandle (moment : CargoMoment) (call : CargoCall) (store : CargoStore) :
    Effect store (readingHandle moment call store).2 call := by
  cases call <;> exact effect_cargoHandle _ _ store

/-- **What the index of a crate lists can be downloaded**, with the checksum of the line. -/
def Served (config : CargoConfig) (name : String) (store : CargoStore) : Prop :=
  ∀ described, .entry described ∈ store.linesOf name →
    config.isSemver described.vers ∧ validatePathComponent described.vers ∧
      ∃ data, store.crates.get (crateFile name described.vers) = some data ∧
        config.sha256 data = described.cksum

/-! ### Other crates -/

def CargoCall.Touches (name : String) : CargoCall → Prop
  | storeCrate other .. | writeIndex other _ => other = name
  | _ => True

section CallsOnly

variable {ok : CargoCall → Prop}

theorem reserve_callsOnly (isOk : ∀ call, ok (.quota call)) (config : CargoConfig) (bytes : ℕ) :
    (reserve config bytes).run.CallsOnly (I := CargoCalls) ok :=
  .translate _ fun call => Prog.CallsOnly.perform (isOk call)

theorem adjust_callsOnly (isOk : ∀ call, ok (.quota call)) (config : CargoConfig) (delta : ℤ) :
    (adjust config delta).run.CallsOnly (I := CargoCalls) ok :=
  .exceptLift (.translate _ fun call => Prog.CallsOnly.perform (isOk call))

theorem validateNameAndVersion_callsOnly (config : CargoConfig) (name version : String) :
    (validateNameAndVersion config name version).run.CallsOnly (I := CargoCalls) ok := by
  unfold validateNameAndVersion
  split_ifs <;> exact .pure _

theorem checkVersion_callsOnly (isOk : ok (.readIndex name)) (version : String) :
    (checkVersion name version).run.CallsOnly (I := CargoCalls) ok := by
  refine .exceptCall isOk fun found => ?_
  cases found with
  | error _ => exact .pure _
  | ok lines =>
    dsimp only
    split_ifs <;> exact .pure _

theorem appendIndexEntry_callsOnly (makes : ok (.createIndexDir name))
    (loads : ok (.loadIndex name)) (writes : ∀ lines, ok (.writeIndex name lines))
    (line : IndexLine) : (appendIndexEntry name line).run.CallsOnly (I := CargoCalls) ok := by
  refine .exceptCall makes fun made => ?_
  cases made with
  | error _ => exact .pure _
  | ok _ =>
    refine .exceptCall loads fun loaded => ?_
    cases loaded with
    | ok lines => exact .exceptPerform (writes _)
    | error error =>
      cases error with
      | notFound => exact .exceptPerform (writes _)
      | _ => exact .pure _

theorem publishCrate_touches (config : CargoConfig) (metadata : CrateMetadata) (data : Bytes) :
    (publishCrate config metadata data).run.CallsOnly (I := CargoCalls)
      (CargoCall.Touches metadata.name) := by
  refine .exceptBind (validateNameAndVersion_callsOnly _ _ _) fun _ => ?_
  refine .exceptBind (checkVersion_callsOnly trivial _) fun _ => ?_
  refine .exceptBind (reserve_callsOnly (fun _ => trivial) _ _) fun _ => ?_
  refine .exceptCall rfl fun stored => ?_
  cases stored with
  | error _ => exact .exceptBind (adjust_callsOnly (fun _ => trivial) _ _) fun _ => .pure _
  | ok _ =>
    refine .exceptBind (appendIndexEntry_callsOnly trivial trivial (fun _ => rfl) _)
      fun appended => ?_
    cases appended <;> exact .pure _

end CallsOnly

section Apart

variable {config : CargoConfig} {name other : String} {store store' : CargoStore} {call : CargoCall}

theorem index_of_touches (apart : indexPrefix other ≠ indexPrefix name)
    (touches : call.Touches other) (effect : Effect store store' call) :
    store'.index.get (indexPrefix name) = store.index.get (indexPrefix name) := by
  cases effect with
  | neither index | stores index => rw [index]
  | writes index =>
    obtain rfl : _ = other := touches
    rw [index, Assoc.get_set_of_ne apart]

theorem Served.of_touches (valid : validateCrateName name) (validOther : validateCrateName other)
    (apart : indexPrefix other ≠ indexPrefix name) (touches : call.Touches other)
    (effect : Effect store store' call) (served : Served config name store) :
    Served config name store' := by
  intro described listed
  unfold linesOf at listed
  rw [index_of_touches apart touches effect] at listed
  obtain ⟨semver, component, data, stored, hash⟩ := served described listed
  refine ⟨semver, component, data, ?_, hash⟩
  cases effect with
  | neither index crates | writes index crates => rwa [crates]
  | stores index crates =>
    obtain rfl : _ = other := touches
    rw [crates, Assoc.get_set_of_ne, stored]
    intro same
    obtain ⟨rfl, -⟩ := crateFile_injective validOther valid same
    exact apart rfl

end Apart

/-! ### The crate itself -/

section Own

variable {config : CargoConfig} {name : String} {store : CargoStore}

def SameFiles (store store' : CargoStore) : Prop :=
  store'.index = store.index ∧ store'.crates = store.crates

theorem Served.of_sameFiles (same : SameFiles store store') (served : Served config name store) :
    Served config name store' := by
  unfold Served linesOf
  rw [same.1, same.2]
  exact served

theorem linesOf_of_sameFiles (same : SameFiles store store') (name : String) :
    store'.linesOf name = store.linesOf name := by
  unfold linesOf
  rw [same.1]

theorem sameFiles_of_quota {ε α : Type} {p : ExceptT ε (Prog CargoCalls) α}
    (only : p.run.CallsOnly (I := CargoCalls) fun call => ∃ quota, call = .quota quota) :
    Delivers readingHandle p (fun _ => SameFiles store) (SameFiles store) store := by
  refine Delivers.ensures_iff.mpr (only.ensures ?_ ⟨rfl, rfl⟩)
  rintro _ ⟨call, rfl⟩ moment current same
  exact same

theorem readIndex_cases (valid : validateCrateName name) (works : Bool) :
    store.readIndex works name = .ok (store.linesOf name) ∨
      store.readIndex works name = .error .notFound ∧ store.linesOf name = [] ∨
      works = false ∧ store.readIndex works name = .error .io := by
  have isRead : store.readIndex works name = read works store.index (indexPrefix name) := by
    unfold readIndex indexPath
    rw [validatePathComponent_of_crateName valid]
    rfl
  rw [isRead]
  unfold CargoStore.read CargoStore.linesOf
  cases works with
  | false => exact .inr (.inr ⟨rfl, rfl⟩)
  | true =>
    cases store.index.get (indexPrefix name) with
    | none => exact .inr (.inl ⟨rfl, rfl⟩)
    | some lines => exact .inl rfl

/-- **A publish goes on only if the index does not have the version.** -/
theorem checkVersion_delivers (valid : validateCrateName name) (version : String) :
    Delivers readingHandle (checkVersion name version)
      (fun _ s => s = store ∧ version ∉ versions (store.linesOf name))
      (fun s => s = store) store := by
  refine .call fun moment => ?_
  dsimp only [readingHandle, cargoHandle]
  rcases readIndex_cases valid true with isRead | ⟨isRead, empty⟩ | ⟨never, -⟩
  · rw [isRead]
    dsimp only
    split_ifs with listed
    · exact .throw rfl
    · exact .pure ⟨rfl, listed⟩
  · rw [isRead, empty]
    exact .pure ⟨rfl, not_mem_nil⟩
  · cases never

theorem mem_versions (listed : .entry described ∈ lines) : described.vers ∈ versions lines :=
  mem_filterMap.mpr ⟨_, listed, rfl⟩

theorem Served.of_stores (valid : validateCrateName name)
    (unlisted : version ∉ versions (store.linesOf name)) (served : Served config name store)
    (contents : Bytes) : Served config name { store with
      crates := store.crates.set (crateFile name version) contents } := by
  intro described listed
  obtain ⟨semver, component, data, stored, hash⟩ := served described listed
  refine ⟨semver, component, data, ?_, hash⟩
  rw [Assoc.get_set_of_ne, stored]
  intro same
  obtain ⟨-, rfl⟩ := crateFile_injective valid valid same
  exact unlisted (mem_versions listed)

theorem Served.of_appends (semver : config.isSemver line.vers)
    (component : validatePathComponent line.vers)
    (stored : store.crates.get (crateFile name line.vers) = some data)
    (hash : config.sha256 data = line.cksum) (served : Served config name store) :
    Served config name { store with
      index := store.index.set (indexPrefix name) (store.linesOf name ++ [.entry line]) } := by
  intro described listed
  unfold linesOf at listed
  rw [Assoc.get_set_self] at listed
  rcases mem_append.mp listed with old | new
  · exact served described old
  · simp_all

theorem storeCrate_cases (outcome : WriteOutcome) (version : String) (data : Bytes) :
    (∃ error, store.storeCrate outcome name version data = (.error error, store)) ∨
      (∃ contents error, store.storeCrate outcome name version data =
        (.error error,
          { store with crates := store.crates.set (crateFile name version) contents })) ∨
      validatePathComponent version = true ∧ store.storeCrate outcome name version data =
        (.ok (), { store with crates := store.crates.set (crateFile name version) data }) := by
  unfold storeCrate cratePath
  split_ifs with badName badVersion
  · exact .inl ⟨_, rfl⟩
  · exact .inl ⟨_, rfl⟩
  · cases outcome with
    | done => exact .inr (.inr ⟨by simpa using badVersion, rfl⟩)
    | failed => exact .inl ⟨_, rfl⟩
    | torn contents => exact .inr (.inl ⟨contents, _, rfl⟩)

theorem writeIndex_cases (works : Bool) (lines : List IndexLine) :
    (∃ error, store.writeIndex works name lines = (.error error, store)) ∨
      store.writeIndex works name lines =
        (.ok (), { store with index := store.index.set (indexPrefix name) lines }) := by
  unfold writeIndex
  cases isPath : indexPath name with
  | error error => exact .inl ⟨_, rfl⟩
  | ok path =>
    obtain rfl := indexPath_of_ok isPath
    cases works with
    | true => exact .inr rfl
    | false => exact .inl ⟨_, rfl⟩

/-- **The line is appended to what the file has.** -/
theorem appendIndexEntry_served (valid : validateCrateName name)
    (semver : config.isSemver line.vers) (component : validatePathComponent line.vers)
    (stored : store.crates.get (crateFile name line.vers) = some data)
    (hash : config.sha256 data = line.cksum) (served : Served config name store) :
    Delivers readingHandle (appendIndexEntry name (.entry line)) (fun _ => Served config name)
      (Served config name) store := by
  have writes : ∀ lines, lines = store.linesOf name ++ [.entry line] →
      Delivers readingHandle (query (.writeIndex name lines)) (fun _ => Served config name)
        (Served config name) store := by
    rintro _ rfl moment
    dsimp only [readingHandle, cargoHandle]
    rcases writeIndex_cases moment.works (store.linesOf name ++ [.entry line]) with
      ⟨error, failed⟩ | written
    · rw [failed]
      exact served
    · rw [written]
      exact served.of_appends semver component stored hash
  refine .call fun moment => ?_
  dsimp only [readingHandle, cargoHandle]
  cases (indexPath name).bind fun _ => if moment.works then .ok () else .error .io with
  | error error => exact .pure served
  | ok _ =>
    refine .call fun moment => ?_
    dsimp only [readingHandle, cargoHandle]
    rcases readIndex_cases valid moment.works with isRead | ⟨isRead, empty⟩ | ⟨-, isRead⟩
    · rw [isRead]
      exact writes _ rfl
    · simp [*]
    · rw [isRead]
      exact .pure served

theorem validateNameAndVersion_delivers (name version : String) :
    Delivers readingHandle (validateNameAndVersion config name version)
      (fun _ s => s = store ∧ validateCrateName name ∧ config.isSemver version) (fun s => s = store)
      store := by
  unfold validateNameAndVersion
  split_ifs with badName badVersion
  · exact .throw rfl
  · exact .throw rfl
  · exact .pure ⟨rfl, by simpa using badName, by simpa using badVersion⟩

theorem adjust_delivers (delta : ℤ) :
    Delivers readingHandle (adjust config delta) (fun _ => SameFiles store)
    (SameFiles store) store :=
  sameFiles_of_quota (adjust_callsOnly (fun call => ⟨call, rfl⟩) _ _)

/-- **A publish of the crate itself.** -/
theorem publishCrate_served (isName : metadata.name = name) (data : Bytes)
    (served : Served config name store) :
    Delivers readingHandle (publishCrate config metadata data) (fun _ => Served config name)
      (Served config name) store := by
  obtain ⟨_, version, deps, features, links⟩ := metadata
  obtain rfl := isName
  have fails : ∀ s, s = store → Served config _ s := fun _ same => same ▸ served
  refine .andThen ((validateNameAndVersion_delivers _ _).mono (fun _ _ => id) fails) ?_
  rintro _ _ ⟨rfl, valid, semver⟩
  refine .andThen ((checkVersion_delivers valid version).mono (fun _ _ => id) fails) ?_
  rintro _ _ ⟨rfl, unlisted⟩
  refine .andThen ((sameFiles_of_quota (reserve_callsOnly (fun call => ⟨call, rfl⟩) _ _)).mono
    (fun _ _ => id) fun _ same => served.of_sameFiles same) fun _ reserved same => ?_
  have servedNow := served.of_sameFiles same
  rw [← linesOf_of_sameFiles same] at unlisted
  refine .call fun moment => ?_
  dsimp only [readingHandle, cargoHandle]
  rcases storeCrate_cases moment.write version data with
    ⟨error, failed⟩ | ⟨contents, error, torn⟩ | ⟨component, stored⟩
  · rw [failed]
    exact .andThen ((adjust_delivers _).mono (fun _ _ => id)
      fun _ same => servedNow.of_sameFiles same) fun _ _ same =>
      .throw (servedNow.of_sameFiles same)
  · rw [torn]
    have servedTorn := servedNow.of_stores valid unlisted contents
    exact .andThen ((adjust_delivers _).mono (fun _ _ => id)
      fun _ same => servedTorn.of_sameFiles same) fun _ _ same =>
      .throw (servedTorn.of_sameFiles same)
  · rw [stored]
    have servedStored := servedNow.of_stores valid unlisted data
    refine .andThen (appendIndexEntry_served valid semver component
      (Assoc.get_set_self ..) rfl servedStored) fun appended s holds => ?_
    cases appended with
    | ok _ => exact .pure holds
    | error _ => exact .throw holds

end Own

/-! ### Sequences of publishes -/

/-- A publish request, and what is decided at its calls. -/
abbrev Turn := Bytes × (ℕ → CargoMoment)

def publishAll (config : CargoConfig) (turns : List Turn) (store : CargoStore) : CargoStore :=
  turns.foldl (fun s turn => ((publish config turn.1).run.run readingHandle turn.2 s).2) store

def calmHandle : Handler CargoCalls CargoStore Unit := fun _ => cargoHandle {}

def indexOf (name : String) (store : CargoStore) : Except Response (List IndexLine) :=
  ((serveIndex name).run.run calmHandle (fun _ => ()) store).1

def downloadOf (config : CargoConfig) (name version : String) (store : CargoStore) :
    Except Response Bytes :=
  ((download config name version).run.run calmHandle (fun _ => ()) store).1

def publishedName (config : CargoConfig) (body : Bytes) : Option String :=
  (parsePublishBody config.parseMetadata body).toOption.map fun parsed => parsed.metadata.name

/-- **The request is no publish of another crate with the same index file.** -/
def Apart (config : CargoConfig) (name : String) (body : Bytes) : Prop :=
  ∀ other ∈ publishedName config body, validateCrateName other →
    toLowercase other = toLowercase name → other = name
deriving Decidable

section Sequences

variable {config : CargoConfig} {name : String} {store : CargoStore}

section

variable (valid : validateCrateName name)
include valid

section

variable (served : Served config name store)
include served

theorem publishCrate_other
    (other : validateCrateName metadata.name → toLowercase metadata.name ≠ toLowercase name)
    (data : Bytes) :
    (publishCrate config metadata data).run.Ensures readingHandle (fun _ s => Served config name s ∧
        s.index.get (indexPrefix name) = store.index.get (indexPrefix name)) store := by
  by_cases validOther : validateCrateName metadata.name
  · have apart : indexPrefix metadata.name ≠ indexPrefix name :=
      fun same => other validOther ((indexPrefix_eq_iff validOther valid).mp same)
    refine (publishCrate_touches config metadata data).ensures ?_ ⟨served, rfl⟩
    intro call touches moment s holds
    have effect := effect_readingHandle moment call s
    refine ⟨holds.1.of_touches valid validOther apart touches effect, ?_⟩
    rw [index_of_touches apart touches effect, holds.2]
  · refine Delivers.ensures_iff.mp (.andThen ((validateNameAndVersion_delivers _ _).mono
      (fun _ _ => id) ?_) ?_)
    · rintro _ rfl
      exact ⟨served, rfl⟩
    · simp [*]

/-- **A publish keeps what is served.** -/
theorem served_publish (apart : Apart config name body) :
    (publish config body).run.Ensures readingHandle (fun _ => Served config name) store := by
  unfold publish
  unfold Apart publishedName at apart
  cases isParsed : parsePublishBody config.parseMetadata body with
  | error error => exact served
  | ok parsed =>
    rw [isParsed] at apart
    by_cases own : parsed.metadata.name = name
    · exact Delivers.ensures_iff.mp (publishCrate_served own parsed.crateData served)
    · have other : validateCrateName parsed.metadata.name →
          toLowercase parsed.metadata.name ≠ toLowercase name :=
        fun validOther same => own (apart _ rfl validOther same)
      exact (publishCrate_other valid served other parsed.crateData).mono fun _ _ holds => holds.1

theorem index_publish (apart : Apart config name body)
    (isOther : publishedName config body = some other) (different : other ≠ name) :
      (publish config body).run.Ensures readingHandle
      (fun _ s => s.index.get (indexPrefix name) = store.index.get (indexPrefix name)) store := by
  unfold publish
  unfold Apart at apart
  rw [isOther] at apart
  unfold publishedName at isOther
  cases isParsed : parsePublishBody config.parseMetadata body with
  | error error => exact rfl
  | ok parsed =>
    rw [isParsed] at isOther
    cases isOther
    have unlike : validateCrateName parsed.metadata.name →
        toLowercase parsed.metadata.name ≠ toLowercase name :=
      fun validOther same => different (apart _ rfl validOther same)
    exact (publishCrate_other valid served unlike parsed.crateData).mono fun _ _ holds => holds.2

theorem served_publishAll
    (apart : ∀ turn ∈ turns, Apart config name turn.1) :
    Served config name (publishAll config turns store) := by
  induction turns generalizing store with
  | nil => exact served
  | cons turn turns ih =>
    refine ih ?_ fun later mem => apart later (.tail _ mem)
    exact (served_publish valid served (apart turn mem_cons_self)).run turn.2

end

theorem serveIndex_ends (store : CargoStore) :
    Ends calmHandle (serveIndex name)
    (fun lines _ => store.index.get (indexPrefix name) = some lines)
      (fun stop _ => store.index.get (indexPrefix name) = none ∧ stop = ⟨404, []⟩) store := by
  have isRead : store.readIndex true name = read true store.index (indexPrefix name) := by
    unfold readIndex indexPath
    rw [validatePathComponent_of_crateName valid]
    rfl
  unfold serveIndex
  rw [valid]
  refine .call fun _ => ?_
  dsimp only [calmHandle, cargoHandle]
  rw [isRead]
  cases found : store.index.get (indexPrefix name) with
  | none =>
    rw [show read true store.index (indexPrefix name) = .error .notFound by
      unfold CargoStore.read; rw [found]; rfl]
    exact .throw ⟨rfl, rfl⟩
  | some lines =>
    rw [show read true store.index (indexPrefix name) = .ok lines by
      unfold CargoStore.read; rw [found]; rfl]
    exact .pure rfl

theorem indexOf_eq (store : CargoStore) :
    indexOf name store = ((store.index.get (indexPrefix name)).map Except.ok).getD
    (.error ⟨404, []⟩) := by
  have served := Prog.Ensures.run (serveIndex_ends valid store) fun _ => ()
  unfold indexOf
  cases outcome : ((serveIndex name).run.run calmHandle (fun _ => ()) store).1 with
  | ok lines =>
    rw [outcome] at served
    rw [show store.index.get (indexPrefix name) = some lines from served]
    rfl
  | error stop =>
    rw [outcome] at served
    rw [served.1, served.2]
    rfl

theorem downloadOf_eq (semver : config.isSemver version)
    (component : validatePathComponent version)
    (stored : store.crates.get (crateFile name version) = some data) :
    downloadOf config name version store = .ok data := by
  have isRead : store.readCrate true name version = .ok data := by
    unfold readCrate cratePath
    rw [validatePathComponent_of_crateName valid, component]
    show read true store.crates (crateFile name version) = .ok data
    unfold CargoStore.read
    rw [stored]
    rfl
  have serves : (download config name version).run.Ensures calmHandle
      (fun outcome _ => outcome = .ok data) store := by
    unfold download validateNameAndVersion
    rw [valid, semver]
    intro _
    dsimp only [calmHandle, cargoHandle]
    rw [isRead]
    rfl
  exact serves.run _

end

end Sequences

/-- **A crate with an index file of its own.** Along every sequence of publishes, none of which is
one of another crate whose name is alike in lower case, every line of the index that is served for
the crate can be downloaded and has the checksum of what is downloaded, and a publish of another
crate leaves the index. -/
theorem index_apart (config : CargoConfig) (name : String) (valid : validateCrateName name)
    {store : CargoStore} (start : Served config name store) (turns : List Turn)
    (apart : ∀ turn ∈ turns, Apart config name turn.1) :
    (∀ lines, indexOf name (publishAll config turns store) = .ok lines →
      ∀ described, .entry described ∈ lines → ∃ data,
        downloadOf config name described.vers (publishAll config turns store) = .ok data ∧
          config.sha256 data = described.cksum) ∧ ∀ earlier turn later,
          turns = earlier ++ turn :: later →
      ∀ other ∈ publishedName config turn.1, other ≠ name →
        indexOf name (publishAll config (earlier ++ [turn]) store) =
          indexOf name (publishAll config earlier store) := by
  constructor
  · intro lines isServed described listed
    have served := served_publishAll valid start apart
    rw [indexOf_eq valid] at isServed
    have isLines : (publishAll config turns store).linesOf name = lines := by
      unfold linesOf
      cases found : (publishAll config turns store).index.get (indexPrefix name) <;> simp_all
    obtain ⟨semver, component, data, stored, hash⟩ := served described (isLines ▸ listed)
    exact ⟨data, downloadOf_eq valid semver component stored, hash⟩
  · intro earlier turn later split other isOther different
    have member : turn ∈ turns := split ▸ mem_append_right _ mem_cons_self
    have before : ∀ past ∈ earlier, Apart config name past.1 :=
      fun past inEarlier => apart past (split ▸ mem_append_left _ inEarlier)
    have served := served_publishAll valid start before
    have same := (index_publish valid served (apart turn member) isOther different).run turn.2
    rw [indexOf_eq valid, indexOf_eq valid]
    unfold publishAll
    rw [foldl_append]
    exact congrArg (fun found => (Option.map Except.ok found).getD _) same

/-! ### Two sequences -/

/-- The SHA-256 digest of the byte 1. -/
def sampleChecksum : String := "4bf5122f344554c53bde2ebb8cd2b7e3d1600ad631c385a5d7cce23c7785459a"

/-- A registry that knows the metadata of three crates, and the digests of two files. -/
def sampleConfig : CargoConfig where
  tenantId := "tenant"
  parseMetadata json :=
    match ["foo", "Foo", "bar"].find? fun name => json = metadataOf name with
    | some name => .ok { name := name, version := "1.0.0" }
    | none => .error "expected value at line 1 column 1"
  isSemver version := version = "1.0.0"
  sha256 data :=
    if data = [1] then sampleChecksum
    else if data = [1, 2] then "a12871fee210fb8619291eaea194581cbd2531e4b23759d225f6806923f63222"
    else ""

def publishOf (name : String) (data : Bytes) : Turn :=
  (encodePublish (metadataOf name) data, fun _ => {})

theorem index_apart_fooAndBar :
    indexOf "foo" (publishAll sampleConfig [publishOf "foo" [1], publishOf "bar" [1, 2]] {}) =
        indexOf "foo" (publishAll sampleConfig [publishOf "foo" [1]] {}) ∧
      ∃ data, downloadOf sampleConfig "foo" "1.0.0"
          (publishAll sampleConfig [publishOf "foo" [1], publishOf "bar" [1, 2]] {}) = .ok data ∧
        sampleConfig.sha256 data = sampleChecksum := by
  have start : Served sampleConfig "foo" {} := by
    intro described listed
    cases listed
  have apart := index_apart sampleConfig "foo" (by decide +kernel) start
    [publishOf "foo" [1], publishOf "bar" [1, 2]] (by decide +kernel)
  refine ⟨apart.2 [publishOf "foo" [1]] (publishOf "bar" [1, 2]) [] rfl "bar" (by decide +kernel)
    (by decide), ?_⟩
  exact apart.1 [.entry { name := "foo", vers := "1.0.0", cksum := sampleChecksum }]
    (by decide +kernel) { name := "foo", vers := "1.0.0", cksum := sampleChecksum } mem_cons_self

/-- **`Foo` is published, and the index of `foo` has a line**, which cannot be downloaded and keeps
`foo` from being published. -/
theorem index_shared :
    (indexOf "foo" (publishAll sampleConfig [publishOf "Foo" [1]] {})).map versions = .ok
    ["1.0.0"] ∧
      downloadOf sampleConfig "foo" "1.0.0" (publishAll sampleConfig [publishOf "Foo" [1]] {}) =
        .error (cargoError 404 "crate not found") ∧
      ((publish sampleConfig (encodePublish (metadataOf "foo") [1])).run.run readingHandle
        (fun _ => {}) (publishAll sampleConfig [publishOf "Foo" [1]] {})).1 =
        .error (cargoError 409 "crate `foo@1.0.0` already exists") := by
  decide +kernel

end Muli.Cargo
