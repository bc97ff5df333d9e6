/-
**Release artifacts stay as they are.**

An upload of a release artifact that is there is refused, and so is one of its checksums. The other
files that requests write have other names, except that a temporary file may have the name of an
artifact.

* `release_immutable` — **what is stored once is what every later download answers.**
-/

import Muli.Registry.Maven.Repository

namespace Muli.Maven

open Interaction List Assoc MavenStore Delivers

/-- Accesses may fail, but the look whether a file is there succeeds. -/
def statingHandle : Handler MavenCalls MavenStore MavenMoment
  | moment, .fileExists location, store =>
    mavenHandle { moment with works := true } (.fileExists location) store
  | moment, call, store => mavenHandle moment call store

theorem effect_statingHandle (moment : MavenMoment) (call : MavenCall) (store : MavenStore) :
    Effect store (statingHandle moment call store).2 call := by
  cases call <;> exact effect_mavenHandle _ _ store

def calmHandle : Handler MavenCalls MavenStore Unit := fun _ => mavenHandle {}

/-! ### A file and its checksums -/

def ownFiles (location : Location) : List Location :=
  [location, withSuffix ".sha1" location, withSuffix ".md5" location]

/-- **The file is there, with its checksums beside it.** -/
structure Stored (config : MavenConfig) (location : Location) (data : Bytes) (store : MavenStore) :
    Prop where
  file : store.files.get location = some data
  sha1 : store.files.get (withSuffix ".sha1" location) = some (config.compute .sha1 data)
  md5 : store.files.get (withSuffix ".md5" location) = some (config.compute .md5 data)

def MavenCall.Spares (kept : List Location) : MavenCall → Prop
  | writeFile location _ => location ∉ kept
  | rename source target => source ∉ kept ∧ target ∉ kept
  | _ => True

variable {location : Location} {call : MavenCall}

theorem get_of_spares (spares : call.Spares kept) (effect : Effect store store' call)
    (isKept : location ∈ kept) : store'.files.get location = store.files.get location := by
  cases effect with
  | neither files => rw [files]
  | writes files =>
    rw [files, get_set_of_ne]
    rintro rfl
    exact spares isKept
  | renames files =>
    rw [files, get_set_of_ne, get_erase, if_neg]
    · rintro rfl
      exact spares.1 isKept
    · rintro rfl
      exact spares.2 isKept

section Kept

variable {config : MavenConfig} {location : Location} {data : Bytes} {store : MavenStore}

theorem Stored.of_spares (spares : call.Spares (ownFiles location))
    (effect : Effect store store' call) (stored : Stored config location data store) :
    Stored config location data store' where
  file := (get_of_spares spares effect (by simp [ownFiles])).trans stored.file
  sha1 := (get_of_spares spares effect (by simp [ownFiles])).trans stored.sha1
  md5 := (get_of_spares spares effect (by simp [ownFiles])).trans stored.md5

theorem Stored.ensures {E α : Type} {H : Handler MavenCalls MavenStore E} {p : Prog MavenCalls α}
    (effects : ∀ e call s, Effect s (H e call s).2 call)
    (only : p.CallsOnly (I := MavenCalls) (MavenCall.Spares (ownFiles location)))
    (stored : Stored config location data store) :
    p.Ensures H (fun _ => Stored config location data) store := by
  refine only.ensures ?_ stored
  intro call spares e current holds
  exact holds.of_spares spares (effects e call current)

end Kept

/-! ### Names -/

section Names

variable {dir dir' : Location} {file file' : List Char}

theorem withSuffix_concat (ext : String) :
    withSuffix ext (dir ++ [file]) = dir ++ [file ++ ext.toList] :=
  mapLast_concat ..

theorem concat_inj : dir ++ [file] = dir' ++ [file'] ↔ dir = dir' ∧ file = file' := by
  constructor
  · simp
  · rintro ⟨rfl, rfl⟩
    rfl

theorem mem_ownFiles : dir' ++ [file'] ∈ ownFiles (dir ++ [file]) ↔
    dir' = dir ∧
    (file' = file ∨ file' = file ++ ".sha1".toList ∨ file' = file ++ ".md5".toList) := by
  simp only [ownFiles, withSuffix_concat, mem_cons, not_mem_nil, or_false, concat_inj]
  tauto

theorem not_mem_ownFiles (other : dir' ++ [file'] ≠ dir ++ [file])
    (noChecksum : ∀ ext ∈ checksumExtensions, ¬ ext.toList <:+ file') :
    dir' ++ [file'] ∉ ownFiles (dir ++ [file]) := by
  rw [mem_ownFiles]
  rintro ⟨rfl, rfl | rfl | rfl⟩
  · exact other rfl
  · exact noChecksum ".sha1" (by decide) ⟨_, rfl⟩
  · exact noChecksum ".md5" (by decide) ⟨_, rfl⟩

theorem not_suffix_tempName : ∀ ext ∈ checksumExtensions, ¬ ext.toList <:+ tempName file := by
  intro ext isExt ends
  have apart : ∀ ext ∈ checksumExtensions,
      ¬ ext.toList <:+ ".tmp".toList ∧ ¬ ".tmp".toList <:+ ext.toList := by
    decide
  obtain le | le := Nat.le_total ext.toList.length ".tmp".toList.length
  · exact (apart ext isExt).1 (suffix_of_suffix_length_le ends (tempName_suffix file) le)
  · exact (apart ext isExt).2 (suffix_of_suffix_length_le (tempName_suffix file) ends le)

theorem tempPath_not_mem (other : tempPath (dir' ++ [file']) ≠ dir ++ [file]) :
    tempPath (dir' ++ [file']) ∉ ownFiles (dir ++ [file]) := by
  unfold tempPath at other ⊢
  rw [mapLast_concat] at other ⊢
  exact not_mem_ownFiles other not_suffix_tempName

theorem withSuffix_not_mem (isExt : ext ∈ [".sha1", ".md5"]) (isPlain : IsPlain file)
    (other : dir' ++ [file'] ≠ dir ++ [file]) :
    withSuffix ext (dir' ++ [file']) ∉ ownFiles (dir ++ [file]) := by
  have isExtension : ∀ ext ∈ [".sha1", ".md5"], ext ∈ checksumExtensions := by decide
  have apart : ∀ ext' ∈ [".sha1", ".md5"], dir' = dir →
      file' ++ ext.toList ≠ file ++ ext'.toList := by
    intro ext' isExt' sameDir same
    obtain rfl := eq_of_suffix (isExtension _ isExt) (isExtension _ isExt') ⟨file', rfl⟩
      ⟨file, same.symm⟩
    exact other (concat_inj.mpr ⟨sameDir, append_cancel_right same⟩)
  rw [withSuffix_concat, mem_ownFiles]
  rintro ⟨isDir, isFile | isFile | isFile⟩
  · exact isPlain.noChecksum ext (isExtension _ isExt) ⟨file', isFile⟩
  · exact apart ".sha1" (by decide) isDir isFile
  · exact apart ".md5" (by decide) isDir isFile

/-- The file, its temporary file and its checksums are none of these. -/
structure Apart (kept : List Location) (location : Location) : Prop where
  temp : tempPath location ∉ kept
  file : location ∉ kept
  sha1 : withSuffix ".sha1" location ∉ kept
  md5 : withSuffix ".md5" location ∉ kept

/-- **Another file that is no checksum is written without touching these.** -/
theorem apart_ownFiles (isPlain : IsPlain file) (other : dir' ++ [file'] ≠ dir ++ [file])
    (noChecksum : ∀ ext ∈ checksumExtensions, ¬ ext.toList <:+ file')
    (tempFree : tempPath (dir' ++ [file']) ≠ dir ++ [file]) :
    Apart (ownFiles (dir ++ [file])) (dir' ++ [file']) where
  temp := tempPath_not_mem tempFree
  file := not_mem_ownFiles other noChecksum
  sha1 := withSuffix_not_mem (by decide) isPlain other
  md5 := withSuffix_not_mem (by decide) isPlain other

end Names

/-! ### What a program writes -/

section CallsOnly

variable {ok : MavenCall → Prop} {config : MavenConfig}

theorem reserve_callsOnly (isOk : ∀ call, ok (.quota call)) (config : MavenConfig) (bytes : ℕ) :
    (reserve config bytes).run.CallsOnly (I := MavenCalls) ok :=
  .translate _ fun call => Prog.CallsOnly.perform (isOk call)

theorem adjust_callsOnly (isOk : ∀ call, ok (.quota call)) (config : MavenConfig) (delta : ℤ) :
    (adjust config delta).run.CallsOnly (I := MavenCalls) ok :=
  .exceptLift (.translate _ fun call => Prog.CallsOnly.perform (isOk call))

theorem atomicWrite_callsOnly (makes : ok (.createDirAll location.dropLast))
    (writes : ok (.writeFile (tempPath location) data))
    (renames : ok (.rename (tempPath location) location)) :
    (atomicWrite location data).run.CallsOnly (I := MavenCalls) ok := by
  refine .exceptCall makes fun made => ?_
  cases made with
  | error _ => exact .pure _
  | ok _ =>
    refine .exceptCall writes fun written => ?_
    cases written with
    | error _ => exact .pure _
    | ok _ => exact .exceptPerform renames

theorem writeChecksumSidecars_callsOnly
    (sha1 : ok (.writeFile (withSuffix ".sha1" location) (config.compute .sha1 data)))
    (md5 : ok (.writeFile (withSuffix ".md5" location) (config.compute .md5 data))) :
    (writeChecksumSidecars config location data).run.CallsOnly (I := MavenCalls) ok :=
  .exceptCall sha1 fun _ => .exceptCall md5 fun _ => .pure _

theorem regenerateArtifactMetadata_callsOnly
    (lists : ok (.listVersions (groupId.splitOn '.' ++ [artifactId]))) (reads : ok .now) :
    (regenerateArtifactMetadata config groupId artifactId).run.CallsOnly (I := MavenCalls) ok := by
  refine .exceptCall lists fun listed => ?_
  rcases listed with _ | (_ | ⟨version, versions⟩)
  · exact .pure _
  · exact .pure _
  · exact .exceptCall reads fun _ => .pure _

end CallsOnly

section Spares

variable {kept : List Location} {config : MavenConfig} {location : Location}

theorem writeUpload_spares (temp : tempPath location ∉ kept) (file : location ∉ kept) (body : Bytes)
    (failure : String) :
    (writeUpload config location body failure).run.CallsOnly (I := MavenCalls)
      (MavenCall.Spares kept) := by
  refine .exceptBind (atomicWrite_callsOnly trivial temp ⟨temp, file⟩) fun written => ?_
  cases written with
  | ok _ => exact .pure _
  | error _ => exact .exceptBind (adjust_callsOnly (fun _ => trivial) _ _) fun _ => .pure _

theorem refuseExisting_spares (immutable : Bool) (location : Location) (message : String) :
    (refuseExisting immutable location message).run.CallsOnly (I := MavenCalls)
      (MavenCall.Spares kept) := by
  unfold refuseExisting
  split_ifs
  · refine .exceptCall trivial fun there => ?_
    cases there <;> exact .pure _
  · exact .pure _

theorem verifyBase_spares (coord : MavenCoordinate) (algorithm : String) (algo : ChecksumAlgo)
    (body : Bytes) :
    (verifyBase config coord algorithm algo body).run.CallsOnly (I := MavenCalls)
      (MavenCall.Spares kept) := by
  refine .exceptCall trivial fun found => ?_
  rcases found with _ | (_ | data)
  · exact .pure _
  · exact .pure _
  · dsimp only
    split_ifs <;> exact .pure _

variable {coord : MavenCoordinate}

theorem putMetadata_spares (apart : Apart kept (artifactPath coord)) (body : Bytes) :
    (putMetadata config coord body).run.CallsOnly (I := MavenCalls) (MavenCall.Spares kept) :=
  .exceptBind (writeUpload_spares apart.temp apart.file _ _) fun _ =>
    writeChecksumSidecars_callsOnly apart.sha1 apart.md5

theorem refreshMetadata_spares (apart : Apart kept (artifactPath coord.metadata)) :
    (refreshMetadata config coord).run.CallsOnly (I := MavenCalls) (MavenCall.Spares kept) := by
  refine .exceptBind (regenerateArtifactMetadata_callsOnly trivial trivial) fun xml => ?_
  cases xml with
  | none => exact .pure _
  | some xml =>
    refine .exceptBind (atomicWrite_callsOnly trivial apart.temp ⟨apart.temp, apart.file⟩)
      fun written => ?_
    cases written with
    | error _ => exact .pure _
    | ok _ => exact writeChecksumSidecars_callsOnly apart.sha1 apart.md5

theorem putFile_spares (apart : Apart kept (artifactPath coord))
    (metadata : Apart kept (artifactPath coord.metadata)) (body : Bytes) :
    (putFile config coord body).run.CallsOnly (I := MavenCalls) (MavenCall.Spares kept) := by
  refine .exceptBind (refuseExisting_spares _ _ _) fun _ => ?_
  refine .exceptBind (writeUpload_spares apart.temp apart.file _ _) fun _ => ?_
  refine .exceptBind (writeChecksumSidecars_callsOnly apart.sha1 apart.md5) fun _ => ?_
  exact refreshMetadata_spares metadata

theorem putChecksum_spares (temp : tempPath (artifactPath coord) ∉ kept)
    (file : artifactPath coord ∉ kept) (algorithm : String) (baseKind : MavenPathKind)
    (body : Bytes) :
    (putChecksum config coord algorithm baseKind body).run.CallsOnly (I := MavenCalls)
      (MavenCall.Spares kept) := by
  unfold putChecksum
  cases ChecksumAlgo.fromExtension algorithm with
  | none => exact .pure _
  | some algo =>
    refine .exceptBind (verifyBase_spares _ _ _ _) fun _ => ?_
    refine .exceptBind (refuseExisting_spares _ _ _) fun _ => ?_
    exact writeUpload_spares temp file _ _

end Spares

/-! ### Later uploads -/

def tempFiles (coord : MavenCoordinate) : MavenPathKind → List Location
  | .artifact => [tempPath (artifactPath coord), tempPath (artifactPath coord.metadata)]
  | _ => [tempPath (artifactPath coord)]

/-- **No temporary file of the upload is the file.** -/
def TempFree (location : Location) (path : List Char) : Prop :=
  ∀ parsed ∈ (parseMavenPath path).toOption, location ∉ tempFiles parsed.1 parsed.2
deriving Decidable

structure Release (coord : MavenCoordinate) (version file : List Char) : Prop where
  isVersion : coord.version = some version
  isFile : coord.filename = some file
  isPlain : IsPlain file
  isRelease : coord.isSnapshot = false

theorem artifactPath_of_file (isFile : coord.filename = some file) :
    artifactPath coord = coord.dir ++ [file] := by
  unfold artifactPath
  rw [isFile]
  rfl

theorem dir_of_version {coord : MavenCoordinate} (isVersion : coord.version = some version) :
    coord.dir = (coord.groupId.splitOn '.' ++ [coord.artifactId]) ++ [version] := by
  unfold MavenCoordinate.dir
  rw [isVersion]
  rfl

/-- **A file that is there is not written again.** -/
theorem refuseExisting_stops (stored : Stored config location data store)
    (isOwn : own ∈ ownFiles location) (message : String) :
    Delivers statingHandle (refuseExisting true own message) (fun _ _ => False)
      (Stored config location data) store := by
  have there : store.fileExists true own = true := by
    unfold fileExists
    simp only [ownFiles, mem_cons, not_mem_nil, or_false] at isOwn
    rcases isOwn with rfl | rfl | rfl
    · rw [stored.file]
      rfl
    · rw [stored.sha1]
      rfl
    · rw [stored.md5]
      rfl
  refine .call fun moment => ?_
  dsimp only [statingHandle, mavenHandle]
  rw [there]
  exact .throw stored

section Later

variable {config : MavenConfig} {release coord : MavenCoordinate} {version file : List Char}
  {data : Bytes} {store : MavenStore} (isRelease : Release release version file)
include isRelease

theorem isSnapshot_of_dir (hasVersion : coord.version.isSome) (same : coord.dir = release.dir) :
    coord.isSnapshot = false := by
  obtain ⟨version', isVersion⟩ := Option.isSome_iff_exists.mp hasVersion
  rw [dir_of_version isVersion, dir_of_version isRelease.isVersion] at same
  obtain ⟨-, rfl⟩ := concat_inj.mp same
  have released := isRelease.isRelease
  unfold MavenCoordinate.isSnapshot at released ⊢
  rwa [isVersion, ← isRelease.isVersion]

theorem apart_metadata (isFile : coord.filename = some metadataName)
    (tempFree : tempPath (artifactPath coord) ≠ artifactPath release) :
    Apart (ownFiles (artifactPath release)) (artifactPath coord) := by
  rw [artifactPath_of_file isFile, artifactPath_of_file isRelease.isFile] at tempFree ⊢
  refine apart_ownFiles isRelease.isPlain ?_ not_suffix_metadataName tempFree
  exact fun equal => isRelease.isPlain.noMetadata (concat_inj.mp equal).2.symm

variable (stored : Stored config (artifactPath release) data store)
include stored

theorem putFile_keeps (isVersion : coord.version = some version')
    (isFile : coord.filename = some file') (isPlain : IsPlain file')
    (tempFree : artifactPath release ∉ tempFiles coord .artifact) (body : Bytes) :
    (putFile config coord body).run.Ensures statingHandle
      (fun _ => Stored config (artifactPath release) data) store := by
  by_cases same : artifactPath coord = artifactPath release
  · have isDir : coord.dir = release.dir := by
      rw [artifactPath_of_file isFile, artifactPath_of_file isRelease.isFile] at same
      exact (concat_inj.mp same).1
    unfold putFile
    rw [isSnapshot_of_dir isRelease (by rw [isVersion]; rfl) isDir]
    refine ensures_iff.mp ((refuseExisting_stops stored ?_ _).andThen fun _ _ never => never.elim)
    rw [same]
    exact .head _
  · simp only [tempFiles, mem_cons, not_mem_nil, or_false, not_or] at tempFree
    refine Stored.ensures effect_statingHandle
      (putFile_spares ?_ (apart_metadata isRelease rfl (.symm tempFree.2)) body) stored
    have notTemp := Ne.symm tempFree.1
    rw [artifactPath_of_file isFile, artifactPath_of_file isRelease.isFile] at same notTemp ⊢
    exact apart_ownFiles isRelease.isPlain same isPlain.noChecksum notTemp

theorem putChecksum_keeps (isExt : ext ∈ checksumExtensions)
    (isFile : coord.filename = some (base ++ ext.toList))
    (ofPlain : IsPlain base → baseKind = .artifact ∧ coord.version.isSome)
    (tempFree : artifactPath release ∉ tempFiles coord (.checksum (algorithmOf ext) baseKind))
    (body : Bytes) :
    (putChecksum config coord (algorithmOf ext) baseKind body).run.Ensures statingHandle
      (fun _ => Stored config (artifactPath release) data) store := by
  by_cases isOwn : artifactPath coord ∈ ownFiles (artifactPath release)
  · obtain ⟨isDir, isBase⟩ : coord.dir = release.dir ∧ base = file := by
      rw [artifactPath_of_file isFile, artifactPath_of_file isRelease.isFile, mem_ownFiles] at isOwn
      obtain ⟨isDir, isOwn⟩ := isOwn
      refine ⟨isDir, ?_⟩
      rcases isOwn with isOwn | isOwn | isOwn
      · exact absurd ⟨base, isOwn⟩ (isRelease.isPlain.noChecksum ext isExt)
      · obtain rfl := eq_of_suffix isExt (by decide) ⟨base, rfl⟩ ⟨file, isOwn.symm⟩
        exact append_cancel_right isOwn
      · obtain rfl := eq_of_suffix isExt (by decide) ⟨base, rfl⟩ ⟨file, isOwn.symm⟩
        exact append_cancel_right isOwn
    obtain ⟨rfl, hasVersion⟩ := ofPlain (isBase ▸ isRelease.isPlain)
    unfold putChecksum
    rw [isSnapshot_of_dir isRelease hasVersion isDir]
    cases ChecksumAlgo.fromExtension (algorithmOf ext) with
    | none => exact stored
    | some algo =>
      refine Delivers.ensures_iff.mp ((Delivers.ensures_iff.mpr
        (Stored.ensures effect_statingHandle (verifyBase_spares _ _ _ _) stored)).andThen
        fun _ s kept => ?_)
      exact (refuseExisting_stops kept isOwn _).andThen fun _ _ never => never.elim
  · simp only [tempFiles, mem_cons, not_mem_nil, or_false] at tempFree
    refine Stored.ensures effect_statingHandle (putChecksum_spares ?_ isOwn _ _ body) stored
    have notTemp := Ne.symm tempFree
    rw [artifactPath_of_file isFile, artifactPath_of_file isRelease.isFile] at notTemp ⊢
    exact tempPath_not_mem notTemp

/-- **Every later upload keeps a stored release.** -/
theorem putArtifact_keeps (tempFree : TempFree (artifactPath release) path) (body : Bytes) :
    (putArtifact config path body).run.Ensures statingHandle
      (fun _ => Stored config (artifactPath release) data) store := by
  unfold putArtifact
  cases parsed : parseMavenPath path with
  | error error => exact stored
  | ok parts =>
    obtain ⟨coord, kind⟩ := parts
    have notTemp : artifactPath release ∉ tempFiles coord kind := tempFree (coord, kind)
      (by rw [parsed]; rfl)
    have reserved := Stored.ensures effect_statingHandle
      (reserve_callsOnly (fun _ => trivial) config body.length) stored
    refine Delivers.ensures_iff.mp ((Delivers.ensures_iff.mpr reserved).andThen fun _ s kept => ?_)
    refine .andThen (Delivers.ensures_iff.mpr ?_) fun _ _ kept' => .pure kept'
    cases parseMavenPath_shape parsed with
    | artifact isVersion isFile isPlain =>
      exact putFile_keeps isRelease kept isVersion isFile isPlain notTemp body
    | artifactLevel isFile =>
      exact Stored.ensures effect_statingHandle (putMetadata_spares (apart_metadata isRelease isFile
        fun equal => notTemp (by rw [← equal]; exact mem_cons_self)) body) kept
    | versionLevel isFile =>
      exact Stored.ensures effect_statingHandle (putMetadata_spares (apart_metadata isRelease isFile
        fun equal => notTemp (by rw [← equal]; exact .head _)) body) kept
    | checksum isExt isFile ofPlain =>
      exact putChecksum_keeps isRelease kept isExt isFile ofPlain notTemp body

end Later

/-! ### The upload itself -/

section Upload

variable {config : MavenConfig} {coord : MavenCoordinate} {version file : List Char}
  {dir location : Location} {store : MavenStore}

/-- No directory is in the way of the checksums. -/
def SidecarsFree (location : Location) (store : MavenStore) : Prop :=
  withSuffix ".sha1" location ∉ store.dirs ∧ withSuffix ".md5" location ∉ store.dirs
deriving Decidable

theorem SidecarsFree.of_createDirAll (free : SidecarsFree (dir ++ [file]) store) :
    SidecarsFree (dir ++ [file]) (store.createDirAll true dir).2 := by
  have longer : ∀ file' : List Char, dir ++ [file'] ∉ dir.inits := by
    intro file' isInit
    have atMost := (mem_inits _ _ |>.mp isInit).length_le
    simp at atMost
  unfold createDirAll
  split_ifs
  · exact free
  · grind [SidecarsFree, withSuffix_concat]

theorem writeFile_done (store : MavenStore) (location : Location) (data : Bytes) :
    location ∈ store.dirs ∧ store.writeFile .done location data = (.error (), store) ∨
      location ∉ store.dirs ∧ store.writeFile .done location data =
        (.ok (), store.holding location data) := by
  unfold writeFile
  split_ifs with isDir
  · exact .inl ⟨isDir, rfl⟩
  · exact .inr ⟨isDir, rfl⟩

theorem rename_cases (found : store.files.get source = some contents) (target : Location) :
    store.rename true source target = (.error (), store) ∨
      store.rename true source target =
        (.ok (), { store with files := set (Table.erase store.files source) target contents }) := by
  unfold rename
  rw [found]
  dsimp only
  split_ifs
  · exact .inl rfl
  · exact .inr rfl

section

variable (free : SidecarsFree (dir ++ [file]) store)
include free

theorem atomicWrite_stores (body : Bytes) :
    Delivers calmHandle (atomicWrite (dir ++ [file]) body)
    (fun result s => ∀ done, result = .ok done →
        s.files.get (dir ++ [file]) = some body ∧ SidecarsFree (dir ++ [file]) s)
        (fun _ => True) store := by
  refine .call fun _ => ?_
  dsimp only [calmHandle, mavenHandle]
  rw [dropLast_concat]
  have freeThen := free.of_createDirAll
  cases made : store.createDirAll true dir with
  | mk answer s =>
    rw [made] at freeThen
    cases answer with
    | error _ =>
      refine .pure ?_
      rintro _ ⟨⟩
    | ok _ =>
      refine .call fun _ => ?_
      dsimp only [calmHandle, mavenHandle]
      rcases writeFile_done s (tempPath (dir ++ [file])) body with ⟨-, failed⟩ | ⟨-, written⟩
      · rw [failed]
        refine .pure ?_
        rintro _ ⟨⟩
      · rw [written]
        refine .lift fun _ => ?_
        dsimp only [calmHandle, mavenHandle]
        have found : (s.holding (tempPath (dir ++ [file])) body).files.get
            (tempPath (dir ++ [file])) = some body := get_set_self ..
        rcases rename_cases found (dir ++ [file]) with failed | renamed
        · rw [failed]
          rintro _ ⟨⟩
        · rw [renamed]
          exact fun _ _ => ⟨get_set_self .., freeThen⟩

/-- **The upload is written, or its request is refused.** -/
theorem writeUpload_stores (body : Bytes) (failure : String) :
    Delivers calmHandle (writeUpload config (dir ++ [file]) body failure)
      (fun _ s => s.files.get (dir ++ [file]) = some body ∧ SidecarsFree (dir ++ [file]) s)
      (fun _ => True) store := by
  refine (atomicWrite_stores free body).andThen fun result s written => ?_
  cases result with
  | ok done => exact .pure (written done rfl)
  | error _ => exact (anyway _ s).andThen fun _ _ _ => .throw trivial

/-- **The checksums are written beside it.** -/
theorem writeChecksumSidecars_stores
    (written : store.files.get (dir ++ [file]) = some data) :
    Delivers calmHandle (writeChecksumSidecars config (dir ++ [file]) data)
      (fun _ => Stored config (dir ++ [file]) data) (fun _ => True) store := by
  have apart : ∀ ext ext' : String, ext ≠ ext' →
      withSuffix ext (dir ++ [file]) ≠ withSuffix ext' (dir ++ [file]) := by
    intro ext ext' different same
    rw [withSuffix_concat, withSuffix_concat, concat_inj] at same
    exact different (String.toList_inj.mp (append_cancel_left same.2))
  have longer : ∀ ext : String, ext.toList ≠ [] → withSuffix ext (dir ++ [file]) ≠ dir ++
      [file] := by
    intro ext nonempty same
    rw [withSuffix_concat, concat_inj] at same
    exact nonempty (append_right_eq_self.mp same.2)
  refine .call fun _ => ?_
  dsimp only [calmHandle, mavenHandle]
  rcases writeFile_done store (withSuffix ".sha1" (dir ++ [file])) (config.compute .sha1 data) with
    ⟨isDir, -⟩ | ⟨-, sha1⟩
  · exact absurd isDir free.1
  · rw [sha1]
    refine .call fun _ => ?_
    dsimp only [calmHandle, mavenHandle]
    rcases writeFile_done (store.holding _ _) (withSuffix ".md5" (dir ++ [file]))
      (config.compute .md5 data) with ⟨isDir, -⟩ | ⟨-, md5⟩
    · exact absurd isDir free.2
    · rw [md5]
      refine .pure ⟨?_, ?_, get_set_self ..⟩
      · grind [holding, get_set_of_ne]
      · grind [holding, get_set_of_ne, get_set_self]

end

/-- **An upload of an artifact whose accesses work.** -/
theorem putFile_stores (isVersion : coord.version = some version)
    (isFile : coord.filename = some file)
    (isPlain : IsPlain file) (free : SidecarsFree (artifactPath coord) store) (body : Bytes) :
    Delivers calmHandle (putFile config coord body)
      (fun _ => Stored config (artifactPath coord) body) (fun _ => True) store := by
  have refused : Delivers calmHandle (refuseExisting (!coord.isSnapshot) (artifactPath coord)
      "release artifact already exists and cannot be re-deployed") (fun _ s => s = store)
      (fun _ => True) store := by
    unfold refuseExisting
    split_ifs
    · refine .call fun _ => ?_
      split_ifs
      · exact .throw trivial
      · exact .pure rfl
    · exact .pure rfl
  have metadata : Apart (ownFiles (artifactPath coord)) (artifactPath coord.metadata) := by
    have isMetadata : artifactPath coord.metadata = coord.metadata.dir ++ [metadataName] :=
      artifactPath_of_file rfl
    have shorter : coord.metadata.dir ≠ coord.dir := by
      intro same
      rw [dir_of_version isVersion] at same
      exact absurd (congrArg length same) (by simp [MavenCoordinate.dir, MavenCoordinate.metadata])
    rw [isMetadata, artifactPath_of_file isFile]
    refine apart_ownFiles isPlain (fun same => shorter (concat_inj.mp same).1)
      not_suffix_metadataName ?_
    unfold tempPath
    rw [mapLast_concat]
    exact fun same => shorter (concat_inj.mp same).1
  refine refused.andThen ?_
  rintro _ _ rfl
  rw [artifactPath_of_file isFile] at free metadata ⊢
  refine (writeUpload_stores free body _).andThen fun _ s written => ?_
  refine (writeChecksumSidecars_stores written.2 written.1).andThen fun _ s' stored => ?_
  exact (Delivers.ensures_iff.mpr (Stored.ensures (fun _ call s => effect_mavenHandle {} call s)
    (refreshMetadata_spares metadata) stored)).mono (fun _ _ => id) fun _ _ => trivial

end Upload

/-! ### Sequences of uploads -/

/-- An upload, and what is decided at its calls. -/
structure Put where
  path : List Char
  body : Bytes
  decisions : ℕ → MavenMoment := fun _ => {}

def putAll (config : MavenConfig) (puts : List Put) (store : MavenStore) : MavenStore :=
  puts.foldl (fun s put =>
    ((putArtifact config put.path put.body).run.run statingHandle put.decisions s).2) store

def putCalm (config : MavenConfig) (path : List Char) (body : Bytes) (store : MavenStore) :
    Except Response Response × MavenStore :=
  (putArtifact config path body).run.run calmHandle (fun _ => ()) store

def getOf (config : MavenConfig) (path : List Char) (store : MavenStore) : Except Response Bytes :=
  (((getArtifact config path).run.run calmHandle (fun _ => ()) store).1).map Download.data

section Sequences

variable {config : MavenConfig} {coord : MavenCoordinate} {path : List Char} {store : MavenStore}

theorem getOf_eq (parsed : parseMavenPath path = .ok (coord, kind))
    (found : store.files.get (artifactPath coord) = some data) :
    getOf config path store = .ok data := by
  have isRead : store.readFile true (artifactPath coord) = .ok (some data) := by
    unfold readFile
    rw [found]
    rfl
  have serves : (getArtifact config path).run.Ensures calmHandle
      (fun outcome _ => outcome = .ok (buildDownload config coord kind data)) store := by
    unfold getArtifact
    rw [parsed]
    intro _
    dsimp only [calmHandle, mavenHandle]
    rw [isRead]
    rfl
  unfold getOf
  rw [serves.run]
  rfl

theorem putAll_keeps (isRelease : Release coord version file)
    (tempFree : ∀ put ∈ later, TempFree (artifactPath coord) put.path)
    (stored : Stored config (artifactPath coord) data store) :
    Stored config (artifactPath coord) data (putAll config later store) := by
  induction later generalizing store with
  | nil => exact stored
  | cons put later ih =>
    refine ih (fun other mem => tempFree other (.tail _ mem)) ?_
    exact (putArtifact_keeps isRelease stored (tempFree put mem_cons_self) put.body).run
      put.decisions

end Sequences

/-- **A release stays.** Once an upload of a release artifact whose accesses work has succeeded,
every later download answers its bytes, whatever is uploaded in between, if no temporary file of
these uploads is the artifact; and its checksums are answered under its path with the extension, if
the path has no slash at its ends and no dot at its end. -/
theorem release_immutable (config : MavenConfig) (store : MavenStore) (path : List Char)
    (body : Bytes) {coord : MavenCoordinate} (parsed : parseMavenPath path = .ok (coord, .artifact))
    (isRelease : coord.isSnapshot = false) (free : SidecarsFree (artifactPath coord) store)
    (answer : Response) (success : (putCalm config path body store).1 = .ok answer)
    (later : List Put) (tempFree : ∀ put ∈ later, TempFree (artifactPath coord) put.path) :
    getOf config path (putAll config later (putCalm config path body store).2) = .ok body ∧
      ([] ∉ path.splitOn '/' → ¬ ['.'] <:+ path →
        getOf config (path ++ ".sha1".toList)
        (putAll config later (putCalm config path body store).2) =
            .ok (config.compute .sha1 body) ∧
          getOf config (path ++ ".md5".toList)
          (putAll config later (putCalm config path body store).2) =
            .ok (config.compute .md5 body)) := by
  obtain @⟨version, file, isVersion, isFile, isPlain⟩ := parseMavenPath_shape parsed
  have stores : Delivers calmHandle (putArtifact config path body)
      (fun _ => Stored config (artifactPath coord) body) (fun _ => True) store := by
    unfold putArtifact
    rw [parsed]
    have reserved : Delivers calmHandle (reserve config body.length)
        (fun _ s => SidecarsFree (artifactPath coord) s) (fun _ => True) store := by
      have only : (reserve config body.length).run.CallsOnly (I := MavenCalls)
          fun call => ∃ quota, call = .quota quota :=
          reserve_callsOnly (fun call => ⟨call, rfl⟩) _ _
      refine (Delivers.ensures_iff.mpr (only.ensures ?_ free)).mono (fun _ _ => id)
        fun _ _ => trivial
      rintro _ ⟨call, rfl⟩ _ current holds
      exact holds
    refine reserved.andThen fun _ s freeNow => ?_
    exact (putFile_stores isVersion isFile isPlain freeNow body).andThen fun _ _ holds =>
      .pure holds
  have stored : Stored config (artifactPath coord) body (putCalm config path body store).2 := by
    have settles := Prog.Ensures.run stores fun _ => ()
    unfold putCalm at success ⊢
    rw [success] at settles
    exact settles
  have kept := putAll_keeps ⟨isVersion, isFile, isPlain, isRelease⟩ tempFree stored
  have isLast := parseMavenPath_filename parsed
  have sidecar : ∀ ext, artifactPath { coord with
      filename := some (lastOf (segmentsOf path) ++ ext.toList) } =
        withSuffix ext (artifactPath coord) := by
    intro ext
    rw [artifactPath_of_file isLast, withSuffix_concat]
    exact artifactPath_of_file rfl
  refine ⟨getOf_eq parsed kept.file, fun spelled noDot => ⟨?_, ?_⟩⟩
  · refine getOf_eq (parseMavenPath_checksum (by decide) spelled noDot parsed) ?_
    rw [sidecar]
    exact kept.sha1
  · refine getOf_eq (parseMavenPath_checksum (by decide) spelled noDot parsed) ?_
    rw [sidecar]
    exact kept.md5

theorem tempFree_of_name (isPath : location = dir ++ [file]) (notTemp : ¬ ".tmp".toList <:+ file)
    (path : List Char) : TempFree location path := by
  rintro ⟨coord, kind⟩ isParsed isTemp
  have parsed : parseMavenPath path = .ok (coord, kind) := by
    cases result : parseMavenPath path with
    | error error =>
      rw [result] at isParsed
      cases isParsed
    | ok parts =>
      rw [result] at isParsed
      rw [Option.some.inj isParsed]
  have never : ∀ other : MavenCoordinate, ∀ name, other.filename = some name →
      location ≠ tempPath (artifactPath other) := by
    intro other name isFile same
    rw [artifactPath_of_file isFile, tempPath, mapLast_concat, isPath] at same
    exact notTemp ((concat_inj.mp same).2 ▸ tempName_suffix name)
  have isFile := parseMavenPath_filename parsed
  cases kind with
  | artifact =>
    simp only [tempFiles, mem_cons, not_mem_nil, or_false] at isTemp
    exact isTemp.elim (never _ _ isFile) (never _ _ rfl)
  | _ => exact never _ _ isFile (mem_singleton.mp isTemp)

/-! ### Two sequences -/

/-- The SHA-1 and MD5 digests of the files below. -/
def sampleDigests : List (Bytes × String × String) :=
  [([], "da39a3ee5e6b4b0d3255bfef95601890afd80709", "d41d8cd98f00b204e9800998ecf8427e"),
    ([3], "9842926af7ca0a8cca12604f945414f07b01e13d", "8666683506aacd900bbd5a74ac4edf68"),
    ([4, 5, 6], "e809c5d1cea47b45e34701d23f608a9a58034dc9", "b4a3ba90641372b4e4eaa841a5a400ec"),
    ([7, 8], "6df507992b6f05b2c7faaa68294948b5ba9b11dc", "31540cf0b21cd8513d3dbc7192d8cad1")]

def sampleChecksum (algo : ChecksumAlgo) (data : Bytes) : Bytes :=
  let digest := match sampleDigests.lookup data, algo with
    | some (sha1, _), .sha1 => sha1
    | some (_, md5), .md5 => md5
    | _, _ => ""
  digest.toByteArray.data.toList

/-- A registry whose metadata documents are empty. -/
def sampleConfig : MavenConfig where
  tenantId := "tenant"
  compute := sampleChecksum
  checksumText text := (text.dropWhile (· ≤ 32)).rdropWhile (· ≤ 32)
  renderMetadata _ := []

def putOf (path : String) (body : Bytes) : Put where
  path := path.toList
  body := body

/-- A jar's checksum, with a line break, its signature and another upload of the jar. -/
def laterPuts : List Put :=
  [putOf "com/lib/1.0/lib.jar.sha1" (sampleChecksum .sha1 [7, 8] ++ [10]),
    putOf "com/lib/1.0/lib.jar.asc" [3], putOf "com/lib/1.0/lib.jar" [4, 5, 6]]

theorem release_immutable_jar :
    getOf sampleConfig "com/lib/1.0/lib.jar".toList (putAll sampleConfig laterPuts
        (putCalm sampleConfig "com/lib/1.0/lib.jar".toList [7, 8] {}).2) = .ok [7, 8] ∧
      getOf sampleConfig "com/lib/1.0/lib.jar.sha1".toList (putAll sampleConfig laterPuts
        (putCalm sampleConfig "com/lib/1.0/lib.jar".toList [7, 8] {}).2) =
          .ok (sampleChecksum .sha1 [7, 8]) := by
  have parsed : parseMavenPath "com/lib/1.0/lib.jar".toList =
      .ok (⟨"com".toList, "lib".toList, some "1.0".toList, some "lib.jar".toList⟩, .artifact) := by
    decide +kernel
  have stays := release_immutable sampleConfig {} "com/lib/1.0/lib.jar".toList [7, 8] parsed
    (by decide +kernel) (by decide +kernel) ⟨201, []⟩ (by decide +kernel) laterPuts
    (fun _ _ => tempFree_of_name (artifactPath_of_file rfl) (by decide +kernel) _)
  exact ⟨stays.1, (stays.2 (by decide +kernel) (by decide +kernel)).1⟩

/-- **The artifact is the temporary file of another one**: both uploads succeed, and the first
artifact is gone. -/
theorem release_lost :
      (putCalm sampleConfig "com/lib/1.0/lib.jar.tmp".toList [7, 8] {}).1 = .ok ⟨201, []⟩ ∧
      getOf sampleConfig "com/lib/1.0/lib.jar.tmp".toList
        (putCalm sampleConfig "com/lib/1.0/lib.jar.tmp".toList [7, 8] {}).2 = .ok [7, 8] ∧
      getOf sampleConfig "com/lib/1.0/lib.jar.tmp".toList
        (putAll sampleConfig [putOf "com/lib/1.0/lib.jar" [4, 5, 6]]
        (putCalm sampleConfig "com/lib/1.0/lib.jar.tmp".toList [7, 8] {}).2) =
        .error (errorJson 404 "artifact not found") := by
  decide +kernel

end Muli.Maven
