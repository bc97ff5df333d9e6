/-
**A published tarball stays what it is.**

A publish stores its attachments before it looks for versions that exist already, and under the
names that the attachments give. So a request that is refused may still replace the file of a
version that was published before.

* `published_stays` — **what a publish has stored and recorded stays through any requests that spare
  it**; `published_replaced` — a request that is refused replaces it otherwise.
-/

import Muli.Data.Radix64
import Muli.Registry.Npm.Publish

namespace Muli.Npm

open Interaction List Prod Folder

/-! ### What is read back -/

namespace NpmStore

theorem bind_folder_change {α : Type} (get : Folder → Option α) (f : Folder → Folder)
    (empty : get {} = none) (keeps : ∀ folder, get (f folder) = get folder) (store : NpmStore)
    (dir dir' : String) :
    ((store.change dir f).folder dir').bind get = (store.folder dir').bind get := by
  rw [folder_change]
  split_ifs with same
  · subst same
    show get (f _) = _
    rw [keeps]
    cases store.folder dir with
    | none => exact empty
    | some folder => rfl
  · rfl

section

variable (store : NpmStore)

theorem tarball_change_describedBy (dir dir' filename : String)
    (metadata : Option Packument) :
    (store.change dir (describedBy metadata)).tarball dir' filename = store.tarball dir' filename :=
  bind_folder_change (fun folder => folder.tarballs.get filename) (.describedBy metadata) rfl
    (fun _ => rfl) store dir dir'

theorem packument_change_describedBy (dir : String) (metadata : Option Packument) :
    (store.change dir (describedBy metadata)).packument dir = metadata := by
  unfold packument
  rw [folder_change, if_pos rfl]
  rfl

theorem tarball_change_holding_self (dir filename : String) (data : Bytes) :
    (store.change dir (holding filename data)).tarball dir filename = some data := by
  unfold tarball
  rw [folder_change, if_pos rfl]
  exact Assoc.get_set_self _ _ _

end

theorem tarball_change_holding_of_ne (other : filename ≠ filename') (store : NpmStore)
    (dir dir' : String) (data : Bytes) :
    (store.change dir (holding filename data)).tarball dir' filename' =
    store.tarball dir' filename' :=
  bind_folder_change (fun folder => folder.tarballs.get filename') (.holding filename data) rfl
    (fun _ => Assoc.get_set_of_ne other _ _) store dir dir'

theorem readTarball_done {store : NpmStore} : store.readTarball .done package filename = .ok data ↔
      isPathComponent filename.toList ∧
        ∃ dir, packageDir package = some dir ∧ store.tarball dir filename = some data := by
  unfold readTarball
  cases isPathComponent filename.toList <;> cases packageDir package <;> simp
  cases store.tarball _ filename <;> simp

theorem readPackument_done (isDir : packageDir package = some dir) (store : NpmStore) :
    store.readPackument .done package = store.packument dir := by
  unfold readPackument
  rw [isDir]

end NpmStore

/-! ### The file of a version -/

def Packument.Records (packument : Packument) (version : String) (dist : Dist) : Prop :=
  (packument.versions.get version).map VersionMetadata.dist = some dist

/-- **The bytes are served for the version, and the checksums that are recorded are theirs.** -/
def Serves (config : NpmConfig) (package version : String) (data : Bytes) (store : NpmStore) :
    Prop :=
  store.readTarball .done package (tarballFilename package version) = .ok data ∧
    ∃ packument, store.readPackument .done package = some packument ∧
      packument.Records version (config.dist package version data)

def Spares (config : NpmConfig) (package version : String) (data : Bytes)
    (entry : String × Except String PublishRequest) : Prop :=
  packageDir entry.1 = packageDir package → ∀ request, entry.2 = .ok request →
    ∀ attachment ∈ request.attachments.rows, baseName attachment.1 =
    tarballFilename package version →
      ∀ data', config.decode attachment.2 = some data' → data' = data

/-- The document can be read and written, and no tarball is left half written. -/
def NpmMoment.Steady (moment : NpmMoment) : Prop :=
  moment.metadata = .done ∧ ∀ contents, moment.tarball ≠ .torn contents

section Serving

variable {config : NpmConfig} {package version dir : String} {data : Bytes}
    {store store' : NpmStore}

theorem serves_iff (isDir : packageDir package = some dir) :
      Serves config package version data store ↔
      isPathComponent (tarballFilename package version).toList ∧
        store.tarball dir (tarballFilename package version) = some data ∧
        ∃ packument, store.packument dir = some packument ∧
          packument.Records version (config.dist package version data) := by
  unfold Serves
  rw [NpmStore.readTarball_done, NpmStore.readPackument_done isDir, and_assoc]
  simp [isDir]

variable (serves : Serves config package version data store) (isDir : packageDir package = some dir)
include serves isDir

theorem Serves.of_reads (sameFile : store'.tarball dir (tarballFilename package version) =
      store.tarball dir (tarballFilename package version))
    (samePackument : store'.packument dir = store.packument dir) :
    Serves config package version data store' := by
  rw [serves_iff isDir] at serves ⊢
  rwa [sameFile, samePackument]

theorem Serves.of_folder (same : store'.folder dir = store.folder dir) :
    Serves config package version data store' := by
  refine serves.of_reads isDir ?_ ?_
  · unfold NpmStore.tarball
    rw [same]
  · unfold NpmStore.packument
    rw [same]

theorem Serves.storeTarball (isDir' : packageDir package' = some dir)
    (whole : ∀ contents, outcome ≠ .torn contents)
    (spares : filename = tarballFilename package version → data' = data) :
    Serves config package version data (store.storeTarball outcome package' filename data').2 := by
  unfold NpmStore.storeTarball
  rw [isDir']
  split_ifs
  · exact serves
  · cases outcome with
    | done =>
      refine serves.of_reads isDir ?_
        (NpmStore.bind_folder_change metadata (.holding filename data') rfl (fun _ => rfl) ..)
      by_cases same : filename = tarballFilename package version
      · obtain ⟨-, stored, -⟩ := (serves_iff isDir).mp serves
        rw [stored, ← spares same, same]
        exact NpmStore.tarball_change_holding_self ..
      · exact NpmStore.tarball_change_holding_of_ne same ..
    | failed => exact serves
    | madeDir =>
      refine serves.of_reads isDir ?_ ?_
      · exact NpmStore.bind_folder_change (fun folder => folder.tarballs.get _) id rfl
          (fun _ => rfl) ..
      · exact NpmStore.bind_folder_change metadata id rfl (fun _ => rfl) ..
    | torn contents => exact absurd rfl (whole contents)

theorem Serves.writePackument (isDir' : packageDir package' = some dir)
    (records : packument.Records version (config.dist package version data)) :
    Serves config package version data (store.writePackument .done package' packument).2 := by
  obtain ⟨valid, stored, -⟩ := (serves_iff isDir).mp serves
  unfold NpmStore.writePackument
  rw [isDir']
  refine (serves_iff isDir).mpr ⟨valid, ?_, packument, ?_, records⟩
  · exact (NpmStore.tarball_change_describedBy ..).trans stored
  · exact NpmStore.packument_change_describedBy ..

end Serving

/-! ### The steps of a publish -/

section Steps

variable {E : Type} (decides : E → NpmMoment) {config : NpmConfig} {package : String}
  {request : PublishRequest} {store : NpmStore}

theorem delivers_tarballData :
    Delivers (fun e => npmHandle (decides e)) (tarballData config package request version)
      (fun data store' => store' = store ∧ ∃ e, ∀ data',
        store.readTarball (decides e).tarball package (tarballFilename package version) =
          .ok data' → data = data') (fun store' => store' = store) store := by
  refine .call fun e => ?_
  dsimp only [npmHandle]
  cases read : store.readTarball (decides e).tarball package (tarballFilename package version) with
  | ok data => exact .pure ⟨rfl, e, fun data' same => Except.ok.inj (read.symm.trans same)⟩
  | error error =>
    have unread : ∀ data data', store.readTarball (decides e).tarball package
        (tarballFilename package version) = .ok data' → data = data' := by
      intro data data' same
      cases read.symm.trans same
    cases findAttachment config request version with
    | some data => exact .pure ⟨rfl, e, unread data⟩
    | none => exact .throw rfl

theorem delivers_addVersion :
    Delivers (fun e => npmHandle (decides e))
    (addVersion config package request now packument entry)
      (fun packument' store' => store' = store ∧ ∃ e data,
        packument' = packument.withVersion package request now entry
        (config.dist package entry.1 data) ∧
        ∀ data', store.readTarball (decides e).tarball package (tarballFilename package entry.1) =
          .ok data' → data = data') (fun store' => store' = store) store := by
  unfold addVersion
  split_ifs
  · exact .throw rfl
  · refine (delivers_tarballData decides).andThen fun data store' read => ?_
    obtain ⟨same, e, isStored⟩ := read
    exact .pure ⟨same, e, data, rfl, isStored⟩

/-- Where the version is in the request, the recorded checksums are those of the stored file; where
it is not, what is recorded stays. -/
theorem delivers_addVersions {version now : String} {dist : Dist}
    (reads : version ∈ request.versions.rows.map fst → ∃ data,
      config.dist package version data = dist ∧ ∀ e,
        store.readTarball (decides e).tarball package (tarballFilename package version) = .ok data)
    (packument : Packument) : Delivers (fun e => npmHandle (decides e))
      (request.versions.rows.foldlM (addVersion config package request now) packument)
      (fun packument' store' => store' = store ∧
        (packument.Records version dist ∨ version ∈ request.versions.rows.map fst →
          packument'.Records version dist)) (fun store' => store' = store) store := by
  refine .foldlM (fun done (packument' : Packument) store' => store' = store ∧
    (packument.Records version dist ∨ version ∈ done.map fst → packument'.Records version dist))
    ⟨rfl, fun recorded => recorded.resolve_right not_mem_nil⟩ ?_
  intro done entry later split packument' store' holds
  obtain ⟨unchanged, recorded⟩ := holds
  rw [unchanged]
  refine (delivers_addVersion decides).mono ?_ fun _ => id
  intro packument₂ store₂ added
  obtain ⟨unchanged₂, e, data, isNew, isStored⟩ := added
  refine ⟨unchanged₂, fun either => ?_⟩
  rw [isNew]
  unfold Packument.Records Packument.withVersion
  by_cases same : entry.1 = version
  · -- the version itself is recorded now
    subst same
    rw [Assoc.get_set_self]
    obtain ⟨data', isDist, isRead⟩ := reads (by rw [split]; simp)
    rw [isStored data' (isRead e)]
    exact congrArg some isDist
  · rw [Assoc.get_set_of_ne same]
    refine recorded (either.imp_right fun mem => ?_)
    rw [map_append, mem_append, map_singleton, mem_singleton] at mem
    exact mem.resolve_right (Ne.symm same)

theorem delivers_updatePackument {version : String} (dist : Dist) {good fail : NpmStore → Prop}
    (source : (∀ e, ∃ packument, store.readPackument (decides e).metadata package = some packument ∧
        packument.Records version dist) ∨
      version ∈ request.versions.rows.map fst ∧ ∃ data, config.dist package version data = dist ∧
        ∀ e, store.readTarball (decides e).tarball package (tarballFilename package version) = .ok
        data)
    (stays : fail store) (writes : ∀ e packument, packument.Records version dist →
      Settles (fun _ => good) fail (store.writePackument (decides e).metadata package packument).1
        (store.writePackument (decides e).metadata package packument).2) :
    Delivers (fun e => npmHandle (decides e)) (updatePackument config package request)
      (fun _ => good) fail store := by
  refine .call fun e => .call fun e' => ?_
  dsimp only [npmHandle]
  generalize isStart : (store.readPackument (decides e').metadata package).getD
    (freshPackument package request (decides e).now) = packument
  cases found : request.versions.rows.find? fun entry =>
    (packument.versions.get entry.1).isSome with
  | some entry => exact .throw stays
  | none =>
    have ready : (packument.Records version dist ∨ version ∈ request.versions.rows.map fst) ∧
        (version ∈ request.versions.rows.map fst → ∃ data,
          config.dist package version data = dist ∧ ∀ e,
            store.readTarball (decides e).tarball package (tarballFilename package version) =
              .ok data) := by
      rcases source with recorded | ⟨isKey, reads⟩
      · obtain ⟨_, isRead, records⟩ := recorded e'
        rw [isRead, Option.getD_some] at isStart
        subst isStart
        refine ⟨.inl records, fun isKey => ?_⟩
        -- the duplicate check would have found it
        obtain ⟨entry, isEntry, rfl⟩ := mem_map.mp isKey
        obtain ⟨metadata, isVersion, -⟩ := Option.map_eq_some_iff.mp records
        refine absurd ?_ (find?_eq_none.mp found entry isEntry)
        rw [isVersion]
        rfl
      · exact ⟨.inr isKey, fun _ => reads⟩
    refine ((delivers_addVersions decides ready.2 packument).mono (fun _ _ => id) ?_).andThen ?_
    · exact fun store' same => same ▸ stays
    · intro packument' store' outcome
      obtain ⟨same, records⟩ := outcome
      rw [same]
      refine .call fun e₂ => .call fun e₃ => ?_
      have written := writes e₃ (packument'.stamped request (decides e).now (decides e₂).uuid)
        (records ready.1)
      dsimp only [npmHandle]
      cases answer : (store.writePackument (decides e₃).metadata package
          (packument'.stamped request (decides e).now (decides e₂).uuid)).1 with
      | error error =>
        rw [answer] at written
        exact .throw written
      | ok _ =>
        rw [answer] at written
        exact .pure written

/-! ### A publish that spares the file -/

/-- The call writes no document, and stores no other bytes under the name of the file. -/
def NpmCall.Brings (package filename : String) (data : Bytes) : NpmCall → Prop
  | storeTarball package' filename' data' => package' = package ∧
      (filename' = filename → data' = data)
  | writePackument .. => False
  | _ => True

variable {version dir : String} {data : Bytes} {package' : String}

theorem Serves.npmHandle (serves : Serves config package version data store)
    (isDir : packageDir package = some dir) (isDir' : packageDir package' = some dir)
    (brings : call.Brings package' (tarballFilename package version) data)
    (steady : moment.Steady) :
    Serves config package version data (npmHandle moment call store).2 := by
  cases call with
  | storeTarball package'' filename data' =>
    obtain ⟨rfl, spares⟩ := brings
    exact serves.storeTarball isDir isDir' steady.2 spares
  | writePackument package'' packument => exact brings.elim
  | quota call => exact serves.of_folder isDir rfl
  | _ => exact serves

variable {attachment : String × String}

section

variable (steady : ∀ e, (decides e).Steady) (serves : Serves config package version data store)
include steady serves

theorem Serves.storeAttachment (isDir : packageDir package = some dir)
    (isDir' : packageDir package' = some dir)
    (spares : baseName attachment.1 = tarballFilename package version →
      ∀ data', config.decode attachment.2 = some data' → data' = data) :
    Delivers (fun e => Npm.npmHandle (decides e)) (storeAttachment config package' attachment)
      (fun _ => Serves config package version data) (Serves config package version data) store := by
  have calls : (Npm.storeAttachment config package' attachment).run.CallsOnly (I := NpmCalls)
      (NpmCall.Brings package' (tarballFilename package version) data) :=
    storeAttachment_callsOnly (fun _ => trivial) fun data' decoded =>
      ⟨rfl, fun same => spares same data' decoded⟩
  exact Delivers.ensures_iff.mpr (calls.ensures (fun call brings e store serves =>
    serves.npmHandle isDir isDir' brings (steady e)) serves)

theorem Serves.updatePackument (isDir : packageDir package = some dir)
    (isDir' : packageDir package' = some dir) :
    Delivers (fun e => Npm.npmHandle (decides e)) (updatePackument config package' request)
      (fun _ => Serves config package version data) (Serves config package version data) store := by
  obtain ⟨packument, isRead, records⟩ := serves.2
  refine delivers_updatePackument decides _ (.inl fun e => ⟨packument, ?_, records⟩) serves ?_
  · rw [(steady e).1, ← isRead, NpmStore.readPackument_done isDir,
      NpmStore.readPackument_done isDir']
  · intro e packument records
    have kept := serves.writePackument isDir isDir' records
    rw [← (steady e).1] at kept
    cases (store.writePackument (decides e).metadata package' packument).1 <;> exact kept

/-- **A request that spares the file keeps what is served**, accepted or not. -/
theorem Serves.handlePublish
    (spares : Spares config package version data (package', body)) :
    (handlePublish config package' body).run.Ensures (fun e => Npm.npmHandle (decides e))
      (fun _ => Serves config package version data) store := by
  obtain ⟨-, dir, isDir, -⟩ := NpmStore.readTarball_done.mp serves.1
  by_cases isDir' : packageDir package' = some dir
  · cases body with
    | error reason => exact serves
    | ok request =>
      unfold Npm.handlePublish
      dsimp only
      split_ifs
      · exact serves
      · cases validatePackageName package' with
        | error error => exact serves
        | ok _ =>
          refine Delivers.ensures_iff.mp ((Delivers.forM
            (fun _ => Serves config package version data) serves ?_).andThen fun _ store serves =>
              serves.updatePackument decides steady isDir isDir')
          intro done attachment later split store serves
          have isAttachment : attachment ∈ request.attachments.rows := by
            rw [split]
            simp
          exact serves.storeAttachment decides steady isDir isDir'
            (spares (isDir'.trans isDir.symm) request rfl attachment isAttachment)
  · -- a publish to another directory
    exact (handlePublish_callsOnly config package' body).ensures (fun call writes e store serves =>
      serves.of_folder isDir (folder_npmHandle writes isDir' _ _)) serves

theorem Serves.publishAll
    (spares : ∀ entry ∈ later, Spares config package version data entry) :
    (publishAll config later).Ensures (fun e => Npm.npmHandle (decides e))
      (fun _ => Serves config package version data) store := by
  induction later generalizing store with
  | nil => exact serves
  | cons entry later ih =>
    have first := serves.handlePublish decides steady (spares entry mem_cons_self)
    refine Prog.ensures_bind.mpr (first.mono fun answer store' serves' => ?_)
    refine Prog.ensures_bind.mpr ((ih serves' ?_).mono fun answers store'' serves'' => serves'')
    exact fun other mem => spares other (.tail _ mem)

end

/-! ### A publish that goes through -/

def NpmStore.Readable (store : NpmStore) (package filename : String) : Prop :=
  ∃ data, store.readTarball .done package filename = .ok data

theorem NpmStore.Readable.of_folders {store' : NpmStore}
    (readable : store.Readable package filename) (same : store'.folders = store.folders) :
    store'.Readable package filename := by
  obtain ⟨data, isRead⟩ := readable
  refine ⟨data, ?_⟩
  rw [← isRead]
  unfold NpmStore.readTarball NpmStore.tarball NpmStore.folder
  rw [same]

theorem ensures_overQuota {α : Type} (p : Prog QuotaCalls α) :
    (overQuota p).Ensures (fun e => npmHandle (decides e))
      (fun _ store' => store'.folders = store.folders) store := by
  have calls : (overQuota p).CallsOnly (I := NpmCalls) fun call => ∃ quota, call = .quota quota :=
    overQuota_callsOnly p fun call => ⟨call, rfl⟩
  refine calls.ensures ?_ rfl
  rintro - ⟨call, rfl⟩ e store' same
  exact same

theorem readable_storeTarball {data : Bytes}
    (written : (store.storeTarball .done package filename' data).1 = .ok ())
    (either : store.Readable package filename ∨ filename' = filename) :
    (store.storeTarball .done package filename' data).2.Readable package filename := by
  unfold NpmStore.storeTarball at written ⊢
  split_ifs at written ⊢ with invalid
  have valid : isPathComponent filename'.toList = true := by simpa using invalid
  cases isDir : packageDir package with
  | none => simp [isDir] at written
  | some dir =>
    by_cases same : filename' = filename
    · subst same
      exact ⟨data, NpmStore.readTarball_done.mpr
        ⟨valid, dir, isDir, NpmStore.tarball_change_holding_self ..⟩⟩
    · obtain ⟨data', isRead⟩ := either.resolve_right same
      obtain ⟨valid', dir', isDir', isTarball⟩ := NpmStore.readTarball_done.mp isRead
      refine ⟨data', NpmStore.readTarball_done.mpr ⟨valid', dir', isDir', ?_⟩⟩
      exact (NpmStore.tarball_change_holding_of_ne same ..).trans isTarball

theorem delivers_storeAttachment (works : ∀ e, (decides e).tarball = .done) (filename : String) :
    Delivers (fun e => npmHandle (decides e)) (storeAttachment config package attachment)
      (fun _ store' => store.Readable package filename ∨ baseName attachment.1 = filename →
        store'.Readable package filename) (fun _ => True) store := by
  unfold storeAttachment
  cases config.decode attachment.2 with
  | none => exact .throw trivial
  | some data =>
    refine .bind ((ensures_overQuota decides _).mono fun outcome store' same => ?_)
    cases outcome with
    | error stop => exact trivial
    | ok _ =>
      refine .call fun e => ?_
      dsimp only [npmHandle]
      rw [works e]
      cases written : (store'.storeTarball .done package (baseName attachment.1) data).1 with
      | error error =>
        exact .andThen (.lift (ensures_overQuota decides _)) fun _ _ _ =>
          Delivers.throw trivial
      | ok _ =>
        refine .pure fun either => readable_storeTarball written (either.imp_left ?_)
        exact fun readable => readable.of_folders same

theorem delivers_updatePackument_served (works : ∀ e, (decides e).tarball = .done)
    (isVersion : version ∈ request.versions.rows.map fst)
    (readable : store.Readable package (tarballFilename package version)) :
    Delivers (fun e => npmHandle (decides e)) (updatePackument config package request)
      (fun _ store' => ∃ data, Serves config package version data store')
      (fun _ => True) store := by
  obtain ⟨data, isRead⟩ := readable
  obtain ⟨valid, dir, isDir, isTarball⟩ := NpmStore.readTarball_done.mp isRead
  refine delivers_updatePackument decides (config.dist package version data)
    (.inr ⟨isVersion, data, rfl, fun e => ?_⟩) trivial ?_
  · rw [works e]
    exact isRead
  · intro e packument records
    unfold NpmStore.writePackument
    rw [isDir]
    cases (decides e).metadata with
    | done =>
      refine ⟨data, (serves_iff isDir).mpr ⟨valid, ?_, packument, ?_, records⟩⟩
      · exact (NpmStore.tarball_change_describedBy ..).trans isTarball
      · exact NpmStore.packument_change_describedBy ..
    | _ => exact trivial

/-- The file of the version is among the attachments, or is there already. -/
def Carries (package version : String) (request : PublishRequest) (store : NpmStore) : Prop :=
  (∃ attachment ∈ request.attachments.rows, baseName attachment.1 =
    tarballFilename package version) ∨ store.Readable package (tarballFilename package version)

/-- **A version whose own file is there is served with its checksums once it is published.** -/
theorem delivers_handlePublish (config : NpmConfig) (works : ∀ e, (decides e).tarball = .done)
    (isVersion : version ∈ request.versions.rows.map fst)
    (carries : Carries package version request store) :
    Delivers (fun e => npmHandle (decides e)) (handlePublish config package (.ok request))
      (fun _ store' => ∃ data, Serves config package version data store')
      (fun _ => True) store := by
  unfold handlePublish
  dsimp only
  split_ifs
  · exact .throw trivial
  · cases validatePackageName package with
    | error error => exact .throw trivial
    | ok _ =>
      refine (Delivers.forM (fun done store' =>
        (∃ attachment ∈ done, baseName attachment.1 = tarballFilename package version) ∨
          store.Readable package (tarballFilename package version) →
        store'.Readable package (tarballFilename package version)) ?_ ?_).andThen ?_
      · exact fun either => either.resolve_left fun ⟨attachment, mem, _⟩ =>
          absurd mem not_mem_nil
      · intro done attachment later split store' readable
        refine (delivers_storeAttachment decides works (tarballFilename package version)).mono
          (fun _ store₂ stored carried => ?_) fun _ _ => trivial
        refine stored ?_
        rcases carried with ⟨other, mem, isFile⟩ | readable'
        · rcases mem_append.mp mem with earlier | last
          · exact .inl (readable (.inl ⟨other, earlier, isFile⟩))
          · simp_all
        · exact .inl (readable (.inr readable'))
      · intro _ store' readable
        exact delivers_updatePackument_served decides works isVersion (readable carries)

end Steps

/-! ### Sequences of publishes -/

/-- **What a publish has stored and recorded for a version stays**, whether later publishes are
accepted or rejected, as long as none of them brings other bytes for its file. -/
theorem published_stays (config : NpmConfig) (package version : String) (request : PublishRequest)
    (store : NpmStore) (env : ℕ → NpmMoment) {response : Response} {store' : NpmStore}
    (published : (handlePublish config package (.ok request)).run.run npmHandle env store =
      (.ok response, store')) (works : ∀ n, (env n).tarball = .done)
    (isVersion : version ∈ request.versions.rows.map fst)
    (carries : Carries package version request store) :
    ∃ data, Serves config package version data store' ∧
      ∀ (later : List (String × Except String PublishRequest)) (env' : ℕ → NpmMoment),
        (∀ n, (env' n).Steady) → (∀ entry ∈ later, Spares config package version data entry) →
          Serves config package version data
          ((publishAll config later).run npmHandle env' store').2 := by
  have delivers := delivers_handlePublish
    (fun moment : { moment : NpmMoment // moment.tarball = .done } => moment.1) config
    Subtype.property isVersion carries
  have settles := Prog.Ensures.run delivers fun n => ⟨env n, works n⟩
  rw [Prog.run_comap npmHandle, published] at settles
  obtain ⟨data, serves⟩ := settles
  refine ⟨data, serves, fun later env' steady spares => ?_⟩
  have kept := (serves.publishAll (fun moment : { moment : NpmMoment // moment.Steady } => moment.1)
    Subtype.property spares).run fun n => ⟨env' n, steady n⟩
  rwa [Prog.run_comap npmHandle] at kept

/-- The SHA-1 digests of the files below, and their SHA-512 digests in Base64. -/
def plainDigests : List (Bytes × String × String) :=
  [([97], "86f7e437faa5a7fce15d1ddcb9eaeaea377667b8",
      "H0D8ktokFpR1CXnubPWC8tXX0o4YM13gWrxU0FYOD1MChgxlK/CNVgJSql50IQVG82n7u86MEs/HlXsmUv6adQ=="),
    ([98], "e9d71f5ee7c92d6dc9e92ffdad17b8bd49418f98",
      "Umd2iCLuYk1I/OFexcp5y9YCy39MIVelFlVpkfIu+Me173sY0f9BxZNw77CFhlHUSpNsEbexRMSP4E3zxqPo2g==")]

def plainConfig : NpmConfig where
  tenantId := "tenant"
  decode text := Radix64.decode text.toList
  sha1Hex data := ((plainDigests.lookup data).map fst).getD ""
  sha512Base64 data := ((plainDigests.lookup data).map snd).getD ""
  parsesVersion version := version ∈ ["1.0.0", "2.0.0"]

/-- A request for a version of `p`, with a file under the name of that version. -/
def requestWith (version contents : String) : PublishRequest where
  name := "p"
  versions := Assoc.set ∅ version none
  attachments := Assoc.set ∅ (tarballFilename "p" version) contents

/-- The first request, where nothing fails, and the answer to it. -/
def publishFirst : Except Response Response × NpmStore :=
  (handlePublish plainConfig "p" (.ok (requestWith "1.0.0" "YQ=="))).run.run npmHandle (fun _ => {})
    {}

/-- Further requests. -/
def publishAfter (later : List (String × Except String PublishRequest)) :
    List (String × Except Response Response) × NpmStore :=
  (publishAll plainConfig later).run npmHandle (fun _ => {}) publishFirst.2

/-- The same version with the same file, the next version, and a body that is no request. -/
def sparingRequests : List (String × Except String PublishRequest) :=
  [("p", .ok (requestWith "1.0.0" "YQ==")), ("p", .ok (requestWith "2.0.0" "Yg==")),
    ("p", .error "EOF while parsing a value")]

theorem published_stays_sparing : Serves plainConfig "p" "1.0.0" [97] publishFirst.2 ∧
      ((publishAfter sparingRequests).1.map fun answer => answer.2.toOption.isSome) = [false,
      true, false] ∧ Serves plainConfig "p" "1.0.0" [97] (publishAfter sparingRequests).2 := by
  have published : publishFirst.1 =
      .ok ⟨200, [("ok", "true"), ("success", "true"), ("rev", "2-")]⟩ := by
    decide +kernel
  obtain ⟨data, serves, stays⟩ :=
    published_stays plainConfig "p" "1.0.0" (requestWith "1.0.0" "YQ==") {}
    (fun _ => {}) (Prod.ext published rfl) (fun _ => rfl) (by decide) (.inl (by decide +kernel))
  have isRead : publishFirst.2.readTarball .done "p" (tarballFilename "p" "1.0.0") = .ok [97] := by
    decide +kernel
  obtain rfl : [97] = data := Except.ok.inj (isRead.symm.trans serves.1)
  refine ⟨serves, by decide +kernel, stays sparingRequests (fun _ => {}) (fun _ => ⟨rfl, ?_⟩) ?_⟩
  · rintro _ ⟨⟩
  · have spared : ∀ entry ∈ sparingRequests, ∀ request ∈ entry.2.toOption,
        ∀ attachment ∈ request.attachments.rows, baseName attachment.1 =
        tarballFilename "p" "1.0.0" →
          plainConfig.decode attachment.2 = some [97] := by decide +kernel
    intro entry mem _ request isRequest attachment isAttachment isFile data' decoded
    have decodes := spared entry mem request (by rw [isRequest]; rfl) attachment isAttachment isFile
    exact Option.some.inj (decoded.symm.trans decodes)

/-- A second publish of the version is refused, and its file is served under the old checksums. -/
theorem published_replaced : let after := publishAfter [("p", .ok (requestWith "1.0.0" "Yg=="))]
    publishFirst.1.toOption.isSome = true ∧
      (after.1.map fun answer => answer.2.toOption.isSome) = [false] ∧
      after.2.readTarball .done "p" "p-1.0.0.tgz" = .ok [98] ∧
      ((after.2.readPackument .done "p").bind fun packument =>
        (packument.versions.get "1.0.0").map fun metadata => metadata.dist.shasum) =
          some (plainConfig.sha1Hex [97]) := by
  decide +kernel

end Muli.Npm
