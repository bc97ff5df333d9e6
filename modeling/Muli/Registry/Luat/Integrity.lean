/-
**The integrity of the indexes.**

Publishes and yanks run side by side, and any of them may fail or stop at any call. Under the lock a
publish stores a tarball only for a release that the index does not have, and adds a line only for
the tarball it has stored.

* `registry_sound` — **along every schedule of requests, none of which is dropped with a write in
  flight, every index stays sound and only grows.**
-/

import Muli.Interaction.Mutex
import Muli.Registry.Luat.Publish

namespace Muli.Luat

open Interaction List Function LuatWorld

/-! ### Sound indexes -/

def IndexEntry.unflagged (entry : IndexEntry) : IndexEntry := { entry with yanked := false }

def PackageFiles.published (files : PackageFiles) : List IndexEntry :=
  files.entries.map IndexEntry.unflagged

/-- **The index of a package is sound.** -/
structure IndexSound (server : LuatServer) (files : PackageFiles) : Prop where
  /-- Every line parses. -/
  readable : ∀ lines, files.index = some lines → ∃ entries, lines = renderIndex entries
  /-- Every line names a version whose stored tarball hashes to the line's checksum. -/
  tarballs : ∀ entry ∈ files.entries, ∃ bytes, files.tarballs entry.vers = some bytes ∧
    entry.cksum = "sha256:" ++ server.sha256Hex bytes
  /-- No two lines have versions of equal precedence. -/
  releases : files.entries.Pairwise fun entry other =>
    ¬ server.semver.sameRelease entry.vers other.vers

abbrev Files := PackageDir → PackageFiles

def FilesSound (server : LuatServer) (files : Files) :
    Prop := ∀ package, IndexSound server (files package)

/-- **No line is removed, and only its flag changes.** -/
def Grows (before after : Files) : Prop :=
  ∀ package, (before package).published <+: (after package).published

theorem Grows.refl (files : Files) : Grows files files := fun _ => prefix_refl _

theorem Grows.trans (before : Grows first second) (after : Grows second third) :
    Grows first third :=
  fun package => (before package).trans (after package)

def Vacant (server : LuatServer) (package : PackageDir) (version : String) (files : Files) : Prop :=
  ∀ entry ∈ (files package).entries, ¬ server.semver.sameRelease entry.vers version

/-- The release has no line, and its tarball is stored. -/
structure Ready (server : LuatServer) (package : PackageDir) (version : String) (tarball : Bytes)
    (files : Files) : Prop where
  vacant : Vacant server package version files
  stored : (files package).tarballs version = some tarball

section Writes

variable {server : LuatServer} {files : PackageFiles}

section

variable (sound : IndexSound server files)
include sound

theorem IndexSound.congr (index : files'.index = files.index)
    (tarballs : files'.tarballs = files.tarballs) : IndexSound server files' := by
  have entries : files'.entries = files.entries := by
    unfold PackageFiles.entries
    rw [index]
  constructor
  · rw [index]
    exact sound.readable
  · rw [entries, tarballs]
    exact sound.tarballs
  · rw [entries]
    exact sound.releases

theorem IndexSound.tarball (bytes : Bytes)
    (vacant : ∀ entry ∈ files.entries, ¬ server.semver.sameRelease entry.vers version) :
    IndexSound server (files.write (.tarball version bytes)) := by
  refine ⟨sound.readable, fun entry mem => ?_, sound.releases⟩
  obtain ⟨stored, isStored, isCksum⟩ := sound.tarballs entry mem
  have other : entry.vers ≠ version := by
    rintro rfl
    exact vacant entry mem (Semver.sameRelease_refl _)
  exact ⟨stored, (update_of_ne other ..).trans isStored, isCksum⟩

omit sound in
theorem entries_write_index (files : PackageFiles) (entries : List IndexEntry) :
    (files.write (.index (renderIndex entries))).entries = entries :=
  parseIndex_renderIndex entries

theorem IndexSound.append
    (vacant : ∀ other ∈ files.entries, ¬ server.semver.sameRelease other.vers entry.vers)
    (stored : files.tarballs entry.vers = some bytes)
    (isCksum : entry.cksum = "sha256:" ++ server.sha256Hex bytes) :
    IndexSound server (files.write (.index (renderIndex (files.entries ++ [entry])))) := by
  constructor
  · intro lines isLines
    exact ⟨_, (Option.some.inj isLines).symm⟩
  · rw [entries_write_index]
    intro other mem
    rcases mem_append.mp mem with old | new
    · exact sound.tarballs other old
    · obtain rfl := mem_singleton.mp new
      exact ⟨bytes, stored, isCksum⟩
  · rw [entries_write_index, pairwise_append]
    refine ⟨sound.releases, pairwise_singleton .., fun other old new isNew => ?_⟩
    obtain rfl := mem_singleton.mp isNew
    exact vacant other old

theorem IndexSound.flags
    (same : entries.map IndexEntry.unflagged = files.entries.map IndexEntry.unflagged) :
    IndexSound server (files.write (.index (renderIndex entries))) := by
  constructor
  · intro lines isLines
    exact ⟨_, (Option.some.inj isLines).symm⟩
  · rw [entries_write_index]
    intro entry mem
    have inFiles := same ▸ mem_map_of_mem mem
    obtain ⟨other, isOther, sameLine⟩ := mem_map.mp inFiles
    obtain ⟨bytes, stored, isCksum⟩ := sound.tarballs other isOther
    have sameVers : other.unflagged.vers = entry.unflagged.vers := congrArg IndexEntry.vers sameLine
    have sameCksum : other.unflagged.cksum = entry.unflagged.cksum :=
      congrArg IndexEntry.cksum sameLine
    exact ⟨bytes, (congrArg files.tarballs sameVers).symm.trans stored,
      sameCksum.symm.trans isCksum⟩
  · rw [entries_write_index]
    have releases : (files.entries.map IndexEntry.unflagged).Pairwise fun entry other =>
        ¬ server.semver.sameRelease entry.vers other.vers :=
      pairwise_map.mpr sound.releases
    rw [← same] at releases
    exact pairwise_map.mp releases

end

theorem unflagged_flagVersion (semver : Semver) (version : String) (yanked : Bool)
    (entries : List IndexEntry) :
    (flagVersion semver version yanked entries).map IndexEntry.unflagged =
      entries.map IndexEntry.unflagged := by
  unfold flagVersion
  apply ext_getElem?
  intro place
  rw [getElem?_map, getElem?_map, getElem?_modify]
  cases entries[place]? with
  | none => rfl
  | some entry =>
    split_ifs <;> rfl

end Writes

section AllFiles

variable {server : LuatServer} {files : Files} {package : PackageDir} {written : PackageFiles}

theorem FilesSound.update (sound : FilesSound server files) (isSound : IndexSound server written) :
    FilesSound server (update files package written) := by
  intro other
  by_cases same : other = package
  · subst same
    rwa [update_self]
  · rw [update_of_ne same]
    exact sound other

theorem Grows.update (grows : (files package).published <+: written.published) :
    Grows files (update files package written) := by
  intro other
  by_cases same : other = package
  · subst same
    rwa [update_self]
  · simp [*]

end AllFiles

/-! ### The lock -/

def LuatCall.isWrite : LuatCall → Bool
  | atomicWrite .. => true
  | _ => false

/-- The call is a write whose request is dropped while it is in flight. -/
def Detaches (call : LuatCall) (moment : LuatMoment) : Prop :=
  call.isWrite = true ∧ moment.detaches = true
deriving Decidable

def LuatCall.Quiet : LuatCall → Prop
  | atomicWrite .. | tryLock | unlock | land => False
  | _ => True

theorem luatHandle_quiet (quiet : call.Quiet) (moment : LuatMoment) (world : LuatWorld) :
    (luatHandle moment call world).2.files = world.files ∧
      (luatHandle moment call world).2.inFlight = world.inFlight ∧
      (luatHandle moment call world).2.locked = world.locked := by
  cases call with
  | identity | quota =>
    unfold luatHandle
    dsimp only
    split_ifs <;> exact ⟨rfl, rfl, rfl⟩
  | readIndex | readSummary | readVersionMeta =>
    unfold luatHandle reads
    dsimp only
    split_ifs <;> exact ⟨rfl, rfl, rfl⟩
  | now | stillThere => exact ⟨rfl, rfl, rfl⟩
  | _ => exact quiet.elim

variable {package : PackageDir} {file : FileWrite}

theorem luatHandle_atomicWrite (attached : ¬ Detaches (.atomicWrite package file) moment)
    (world : LuatWorld) : luatHandle moment (.atomicWrite package file) world =
      if moment.works then (.ok (), world.put package file)
      else (.error .failed, world.fails (.atomicWrite package file)) :=
  if_neg fun detaches => attached ⟨rfl, detaches⟩

theorem luatHandle_land (none : world.inFlight = []) (moment : LuatMoment) :
    luatHandle moment .land world = ((), world) := by
  show ((), world.lands moment.landing) = ((), world)
  unfold lands
  rw [none]
  rfl

def grantsLock : (call : LuatCall) → call.Answer → Bool
  | .tryLock, granted => granted
  | _, _ => false

def releasesLock : LuatCall → Bool
  | .unlock => true
  | _ => false

theorem inFlight_step (moment : LuatMoment) (call : LuatCall) (world : LuatWorld)
    (none : world.inFlight = []) (attached : ¬ Detaches call moment) :
    (luatHandle moment call world).2.inFlight = [] := by
  by_cases quiet : call.Quiet
  · rw [(luatHandle_quiet quiet moment world).2.1, none]
  · cases call with
    | atomicWrite package file =>
      rw [luatHandle_atomicWrite attached]
      split_ifs <;> exact none
    | tryLock | unlock => exact none
    | land =>
      rw [luatHandle_land none]
      exact none
    | _ => exact absurd trivial quiet

theorem locked_step (moment : LuatMoment) (call : LuatCall) (world : LuatWorld) :
    (luatHandle moment call world).2.locked =
      (grantsLock call (luatHandle moment call world).1 ||
        (!releasesLock call && world.locked)) := by
  by_cases quiet : call.Quiet
  · rw [(luatHandle_quiet quiet moment world).2.2]
    cases call <;> first | rfl | exact quiet.elim
  · cases call with
    | atomicWrite package file =>
      show (if _ then _ else if _ then _ else _ : Except Stop Unit × LuatWorld).2.locked =
          world.locked
      split_ifs <;> rfl
    | tryLock =>
      show true = (!world.locked || (!false && world.locked))
      cases world.locked <;> rfl
    | unlock => rfl
    | land =>
      show (world.lands moment.landing).locked = world.locked
      unfold lands
      split <;> rfl
    | _ => exact absurd trivial quiet

theorem locked_free (moment : LuatMoment) (call : LuatCall) (world : LuatWorld)
    (granted : grantsLock call (luatHandle moment call world).1 = true) : world.locked = false := by
  cases call with
  | tryLock =>
    exact (Bool.not_eq_true' _).mp granted
  | _ => cases granted

/-- **The write lock** guards the files, while nothing is in flight. -/
def writeLock : Lock luatHandle Files where
  data := files
  held := locked
  grants := grantsLock
  releases := releasesLock
  calm world := world.inFlight = []
  allowed call moment := ¬ Detaches call moment
  calm_step := inFlight_step
  held_step := locked_step
  free := locked_free

theorem passive_of_quiet (quiet : call.Quiet) : writeLock.Passive call := by
  refine ⟨fun answer => ?_, ?_, fun moment world _ _ => (luatHandle_quiet quiet moment world).1⟩
  · cases call <;> first | rfl | exact quiet.elim
  · cases call <;> first | rfl | exact quiet.elim

/-! ### Programs that leave the files alone -/

section Quiet

variable {α ε : Type}

abbrev QuietProg (p : ExceptT ε (Prog LuatCalls) α) : Prop := p.run.CallsOnly LuatCall.Quiet

theorem QuietProg.of_looks {p : ExceptT ε (Prog LuatCalls) α}
    (looks : p.run.CallsOnly LuatCall.Looks) : QuietProg p := by
  refine looks.within fun _ call isLook => ?_
  cases call <;> trivial

theorem goOn_quiet : QuietProg goOn := .of_looks goOn_looks

theorem access_quiet {p : StoreProg α} (quiet : QuietProg p) :
    QuietProg (p >>= fun value => goOn >>= fun _ => pure value : StoreProg α) :=
  Prog.Within.exceptBind quiet fun _ => .exceptBind goOn_quiet fun _ => .pure _

theorem readSummary_quiet (package : PackageDir) : QuietProg (readSummary package) :=
  access_quiet (Prog.CallsOnly.perform trivial)

theorem latestPage_quiet (package : PackageDir) (version : Option String) :
    QuietProg (latestPage package version) := by
  cases version with
  | none => exact .pure _
  | some version => exact access_quiet (.perform trivial)

theorem orNow_quiet (stamp : Option Timestamp) : QuietProg (orNow stamp) := by
  cases stamp with
  | none => exact .exceptPerform trivial
  | some stamp => exact .pure _

theorem overQuota_quiet (p : Prog QuotaCalls α) : (overQuota p).CallsOnly LuatCall.Quiet :=
  Prog.Within.translate p fun _ => Prog.CallsOnly.perform trivial

end Quiet

/-! ### Under the lock -/

section UnderLock

variable (server : LuatServer) {α ε : Type}

/-- **Under the lock the program keeps every index sound and only adds lines**; it turns files that
are known so into files with `post`, if it returns a value. -/
abbrev Secures (p : ExceptT ε (Prog LuatCalls) α) (post : α → Files → Prop) (known : Files → Prop) :
    Prop :=
  writeLock.Yields (FilesSound server) Grows p post known

variable {server}

theorem QuietProg.passive {p : Prog LuatCalls α} (quiet : p.CallsOnly LuatCall.Quiet) :
    p.CallsOnly writeLock.Passive :=
  quiet.within fun _ _ isQuiet => passive_of_quiet isQuiet

variable {known : Files → Prop}

theorem QuietProg.secures {p : ExceptT ε (Prog LuatCalls) α} (quiet : QuietProg p)
    : Secures server p (fun _ => known) known :=
  .frame Grows.refl (QuietProg.passive quiet)

theorem readIndex_secures (package : PackageDir) : Secures server (readIndex package)
      (fun lines files => known files ∧ lines = (files package).index) known := by
  have read : Secures server (.mk (.perform (I := LuatCalls) (.readIndex package)))
      (fun lines files => known files ∧ lines = (files package).index) known := by
    refine .perform (fun _ => rfl) rfl fun moment world _ _ sound isKnown => ?_
    show FilesSound server (world.reads moment.works _ _).2.files ∧
      Grows world.files (world.reads moment.works _ _).2.files ∧ ∀ lines,
        (world.reads moment.works _ (world.files package).index).1 = .ok lines →
          known (world.reads moment.works _ _).2.files ∧ lines =
              ((world.reads moment.works _ _).2.files package).index
    unfold reads
    split_ifs
    · refine ⟨sound, Grows.refl _, ?_⟩
      rintro _ ⟨⟩
      exact ⟨isKnown, rfl⟩
    · refine ⟨sound, .refl _, ?_⟩
      rintro _ ⟨⟩
  refine read.bind fun lines => ?_
  exact goOn_quiet.secures.bind fun _ => .pure fun _ _ => id

theorem atomicWrite_secures {known post : Files → Prop}
    (each : ∀ files, FilesSound server files → known files →
      IndexSound server ((files package).write file) ∧
        (files package).published <+: ((files package).write file).published ∧
        post (update files package ((files package).write file))) :
    Secures server (atomicWrite package file) (fun _ => post) known := by
  have write : Secures server (.mk (.perform (I := LuatCalls) (.atomicWrite package file)))
      (fun _ => post) known := by
    refine .perform (fun _ => rfl) rfl fun moment world _ attached sound isKnown => ?_
    rw [luatHandle_atomicWrite attached]
    obtain ⟨isSound, grows, isPost⟩ := each world.files sound isKnown
    split_ifs
    · exact ⟨sound.update isSound, .update grows, fun _ _ => isPost⟩
    · refine ⟨sound, .refl _, ?_⟩
      rintro _ ⟨⟩
  exact write.bind fun _ => goOn_quiet.secures

theorem otherWrite_secures (index : ∀ files : PackageFiles, (files.write file).index = files.index)
    (tarballs : ∀ files : PackageFiles, (files.write file).tarballs = files.tarballs)
    (keeps : ∀ files, known files → known (update files package ((files package).write file))) :
    Secures server (atomicWrite package file) (fun _ => known) known := by
  refine atomicWrite_secures fun files sound isKnown =>
    ⟨(sound package).congr (index _) (tarballs _), ?_, keeps files isKnown⟩
  have unchanged : ((files package).write file).published = (files package).published := by
    unfold PackageFiles.published PackageFiles.entries
    rw [index]
  exact unchanged.symm ▸ prefix_refl _

theorem refreshSummary_secures (semver : Semver) (package : PackageDir) (entries : List IndexEntry)
    (updatedAt : Option Timestamp) :
    Secures server (refreshSummary semver package entries updatedAt) (fun _ _ => True)
    (fun _ => True) := by
  refine (readSummary_quiet package).secures.bind fun previous => ?_
  refine (latestPage_quiet package _).secures.bind fun page => ?_
  refine (orNow_quiet _).secures.bind fun stamp => ?_
  exact otherWrite_secures (fun _ => rfl) (fun _ => rfl) fun _ _ => trivial

theorem tarballWrite_secures (package : PackageDir) (version : String) (tarball : Bytes) :
    Secures server (atomicWrite package (.tarball version tarball))
      (fun _ => Ready server package version tarball) (Vacant server package version) := by
  refine atomicWrite_secures fun files sound vacant =>
    ⟨(sound package).tarball tarball vacant, prefix_refl _, fun other mem => ?_, ?_⟩
  · rw [update_self] at mem
    exact vacant other mem
  · rw [update_self]
    exact update_self ..

theorem pageWrite_secures (package : PackageDir) (version : String) (tarball : Bytes)
    (page : VersionMeta) : Secures server (atomicWrite package (.pageData version page))
      (fun _ => Ready server package version tarball) (Ready server package version tarball) := by
  refine otherWrite_secures (fun _ => rfl) (fun _ => rfl) fun files ready =>
    ⟨fun other mem => ?_, ?_⟩
  · rw [update_self] at mem
    exact ready.vacant other mem
  · rw [update_self]
    exact ready.stored

theorem lineWrite_secures (isCksum : entry.cksum = "sha256:" ++ server.sha256Hex tarball)
    (lines : Option (List IndexLine)) : Secures server
      (atomicWrite package (.index (renderIndex ((lines.map parseIndex).getD [] ++ [entry]))))
      (fun _ _ => True)
      (fun files => Ready server package entry.vers tarball files ∧
        lines = (files package).index) := by
  refine atomicWrite_secures ?_
  rintro files sound ⟨ready, rfl⟩
  refine ⟨(sound package).append ready.vacant ready.stored isCksum, ?_, trivial⟩
  unfold PackageFiles.published
  rw [entries_write_index, map_append]
  exact prefix_append _ _

/-- **A version whose release has no line is stored soundly.** -/
theorem storeVersion_secures (package : PackageDir) (tarball : Bytes)
    (sameVersion : page.vers = entry.vers)
    (isCksum : entry.cksum = "sha256:" ++ server.sha256Hex tarball) :
    Secures server (storeVersion server.semver package tarball page entry) (fun _ _ => True)
      (Vacant server package entry.vers) := by
  unfold storeVersion
  rw [sameVersion]
  cases server.semver.parse entry.vers with
  | none => exact .throw
  | some _ =>
    refine (tarballWrite_secures package entry.vers tarball).bind fun _ => ?_
    refine (pageWrite_secures package entry.vers tarball page).bind fun _ => ?_
    refine (readIndex_secures package).bind fun lines => ?_
    exact (lineWrite_secures isCksum lines).bind fun _ => refreshSummary_secures ..

theorem flagWrite_secures (package : PackageDir) (version : String) (yanked : Bool)
    (lines : List IndexLine) : Secures server (atomicWrite package
        (.index (renderIndex (flagVersion server.semver version yanked (parseIndex lines)))))
      (fun _ _ => True) (fun files => known files ∧ some lines = (files package).index) := by
  refine atomicWrite_secures ?_
  rintro files sound ⟨-, isIndex⟩
  have isEntries : (files package).entries = parseIndex lines := by
    unfold PackageFiles.entries
    rw [← isIndex]
    rfl
  have same := unflagged_flagVersion server.semver version yanked (parseIndex lines)
  refine ⟨(sound package).flags (same.trans (by rw [isEntries])), ?_, trivial⟩
  have unchanged : ((files package).write (.index (renderIndex
      (flagVersion server.semver version yanked (parseIndex lines))))).published =
        (files package).published := by
    unfold PackageFiles.published
    rw [entries_write_index, isEntries, same]
  exact unchanged.symm ▸ prefix_refl _

theorem setYanked_secures (package : PackageDir) (version : String) (yanked : Bool) :
    Secures server (setYanked server.semver package version yanked) (fun _ _ => True)
    (fun _ => True) := by
  refine (readIndex_secures package).bind fun lines => ?_
  cases lines with
  | none => exact .pure fun _ _ _ => trivial
  | some lines =>
    dsimp only
    cases findVersion server.semver (parseIndex lines) version with
    | none => exact .pure fun _ _ _ => trivial
    | some entry =>
      dsimp only
      split_ifs
      · exact .pure fun _ _ _ => trivial
      refine (flagWrite_secures package version yanked lines).bind fun _ => ?_
      exact (refreshSummary_secures ..).bind fun _ => .pure fun _ _ _ => trivial

theorem versionExists_secures (package : PackageDir) (version : String) :
    Secures server (versionExists server.semver package version)
      (fun isThere files => isThere = false → Vacant server package version files)
      (fun _ => True) := by
  refine (readIndex_secures package).bind fun lines => ?_
  cases lines with
  | none =>
    refine .pure fun files _ isRead _ entry mem => ?_
    unfold PackageFiles.entries at mem
    rw [← isRead.2] at mem
    cases mem
  | some lines =>
    refine .pure fun files _ isRead notFound entry mem same => ?_
    unfold PackageFiles.entries at mem
    rw [← isRead.2] at mem
    have isNone := Option.isSome_eq_false_iff.mp notFound
    exact find?_eq_none.mp (Option.isNone_iff_eq_none.mp isNone) entry mem same

theorem storeReserved_secures (upload : Upload) :
    Secures server (storeReserved server upload) (fun _ _ => True)
      (Vacant server upload.package upload.version) := by
  have reserve : QuietProg (.adapt some (.mk
      (overQuota
        (reserveQuota server.quotaStore upload.package.tenantId upload.tarball.length).run)) :
      HandlerProg Unit) :=
    Prog.Within.exceptAdapt some (p := .mk _) (overQuota_quiet _)
  have there : QuietProg (goOn.adapt fun _ => none : HandlerProg Unit) :=
    Prog.Within.exceptAdapt _ goOn_quiet
  refine reserve.secures.bind fun _ => there.secures.bind fun _ => ?_
  have stored : Secures server (storeVersion server.semver upload.package upload.tarball
      (upload.page server) (upload.entry server)) (fun _ _ => True)
      (Vacant server upload.package upload.version) := storeVersion_secures _ _ rfl rfl
  refine (Lock.Yields.lift stored).bind fun outcome => ?_
  cases outcome with
  | ok _ => exact .pure fun _ _ _ => trivial
  | error stop =>
    cases stop with
    | failed =>
      exact (QuietProg.secures (.exceptLift (overQuota_quiet _))).bind fun _ => .throw
    | dropped => exact .throw

/-- **What a publish does under the lock.** -/
theorem storeUpload_secures (upload : Upload) :
    Secures server (storeUpload server upload) (fun _ _ => True) (fun _ => True) := by
  refine ((versionExists_secures upload.package upload.version).adapt _).bind fun isThere => ?_
  cases isThere with
  | true => exact .throw
  | false => exact (storeReserved_secures upload).strengthen fun _ _ vacant => vacant rfl

/-- **What a yank does under the lock.** -/
theorem flagRelease_secures (request : YankRequest) :
    Secures server (flagRelease server request) (fun _ _ => True) (fun _ => True) := by
  unfold flagRelease
  cases packageDir request.tenantId request.scope request.name with
  | none => exact .throw
  | some package =>
    refine ((setYanked_secures package request.version request.yanked).adapt _).bind fun found => ?_
    cases found with
    | true => exact .pure fun _ _ _ => trivial
    | false => exact .throw

end UnderLock

/-! ### Requests -/

section Requests

variable {server : LuatServer}

abbrev lockProtocol (server : LuatServer) : Protocol LuatCalls (Option (Files → Prop)) :=
  writeLock.protocol (FilesSound server) Grows

theorem acquire_adheres (waits : ℕ) :
    Adheres (lockProtocol server) (acquire waits) (fun _ phase => phase = some fun _ => True)
    none := by
  induction waits with
  | zero => exact .throw _
  | succ waits ih =>
    refine .call ⟨rfl, fun _ _ _ _ => rfl⟩ fun granted _ => ?_
    cases granted with
    | true => exact .pure rfl
    | false => exact ih

/-- **A handler that keeps the indexes sound under the lock may be run by a thread.** -/
theorem withLock_adheres {α : Type} (waits : ℕ) {body : HandlerProg α}
    (secures : Secures server body (fun _ _ => True) fun _ => True) :
    Adheres (lockProtocol server) (withLock waits body) (fun _ _ => True) none := by
  refine (acquire_adheres waits).andThen ?_
  rintro _ _ rfl
  exact Lock.section_adheres Grows.refl secures (fun _ => rfl) fun _ _ _ _ => rfl

theorem QuietProg.adheres {α ε : Type} {p : ExceptT ε (Prog LuatCalls) α} (quiet : QuietProg p) :
    Adheres (lockProtocol server) p (fun _ phase => phase = none) none :=
  .ofWithin (Lock.outside (QuietProg.passive quiet)) rfl

theorem publish_adheres (waits : ℕ) (request : PublishRequest) :
    Adheres (lockProtocol server) (publish server waits request) (fun _ _ => True) none := by
  refine (QuietProg.of_looks (prepare_looks server request)).adheres.andThen ?_
  rintro upload _ rfl
  exact withLock_adheres waits (storeUpload_secures upload)

theorem yank_adheres (waits : ℕ) (request : YankRequest) :
    Adheres (lockProtocol server) (yank server waits request) (fun _ _ => True) none := by
  refine (QuietProg.of_looks (overIdentity_looks _)).adheres.andThen ?_
  rintro _ _ rfl
  exact withLock_adheres waits (flagRelease_secures request)

theorem program_obeys (waits : ℕ) (request : LuatRequest) :
    (request.program server waits).Obeys (lockProtocol server) (fun _ _ => True) none := by
  cases request with
  | publish request => exact (publish_adheres waits request).asThread
  | yank request => exact (yank_adheres waits request).asThread

theorem landings_obeys (n : ℕ) :
    (landings n).Obeys (lockProtocol server) (fun _ _ => True) none := by
  induction n with
  | zero => trivial
  | succ n ih =>
    refine .call ⟨rfl, fun moment world none _ => ?_⟩ fun _ _ => ih
    rw [luatHandle_land none]

end Requests

/-! ### Every schedule -/

/-- **The indexes along a history**: they are sound before and after every call, and no line that is
there before a call is gone, or more than its flag changed, after that call or a later one. -/
structure RegistrySound (server : LuatServer)
    (history : List (ℕ × Event LuatCalls LuatWorld LuatMoment)) : Prop where
  sound : ∀ event ∈ history, FilesSound server event.2.before.files ∧
    FilesSound server (event.2.after luatHandle).files
  grows : ∀ earlier event later, history = earlier ++ event :: later → ∀ other ∈ event :: later,
    Grows event.2.before.files (other.2.after luatHandle).files

/-- **Publishes, yanks and unyanks keep every index sound and only add lines to it**, along every
schedule on which no request is dropped while one of its writes is in flight. -/
theorem registry_sound (server : LuatServer) (n : ℕ) (requests : List (ℕ × LuatRequest))
    {world : LuatWorld} (sound : FilesSound server world.files) (none : world.inFlight = [])
    {schedule : List (ℕ × LuatMoment)}
    (attached : ∀ event ∈ registryHistory server n requests world schedule,
      ¬ Detaches event.2.op event.2.decision) :
    RegistrySound server (registryHistory server n requests world schedule) := by
  have steps : ∀ event ∈ registryHistory server n requests world schedule,
      FilesSound server event.2.before.files ∧ FilesSound server (event.2.after luatHandle).files ∧
        Grows event.2.before.files (event.2.after luatHandle).files := by
    refine Pool.behind_lock (L := writeLock) Grows.refl ?_ ?_ ?_ attached
    · exact none
    · exact sound
    refine forall_mem_cons.mpr ⟨landings_obeys n, ?_⟩
    rintro _ isThread
    obtain ⟨⟨waits, request⟩, -, rfl⟩ := mem_map.mp isThread
    exact program_obeys waits request
  constructor
  · grind
  · intro earlier event later split other member
    have chained : Chained luatHandle world (registryHistory server n requests world schedule) :=
      Pool.trace_chained ⟨_, world⟩ schedule
    rw [split] at chained
    refine (chained.suffix.preserves (P := fun world' => Grows event.2.before.files world'.files) ?_
      (.refl _) other member).2
    intro later' isLater before
    have inHistory := split ▸ mem_append_right _ isLater
    exact before.trans (steps later' inHistory).2.2

/-! ### A write that lands late -/

section Example

/-- Two versions of one release, which differ in their build metadata. -/
def oneRelease : Semver where
  Version := ℕ
  parse text := [("1.0.0", 0), ("1.0.0+b", 0)].lookup text
  isPrerelease _ := false
  Precedence := ℕ
  order := inferInstance
  precedence := id

/-- The SHA-256 digests of the bytes 1 and 2. -/
def libDigests : List (Bytes × String) :=
  [([1], "4bf5122f344554c53bde2ebb8cd2b7e3d1600ad631c385a5d7cce23c7785459a"),
    ([2], "dbc1b4c900ffe48d575b5da5c638040125f65db0fe3e24494b76ea986457d986")]

/-- A server that takes every tarball for version 1.0.0 of `@ada/lib`. -/
def libServer : LuatServer where
  semver := oneRelease
  inspect _ := some (.ok { manifestSource := "" })
  parseManifest _ := .ok { name := "@ada/lib", version := "1.0.0" }
  sha256Hex bytes := (libDigests.lookup bytes).getD ""

def emptyRegistry : LuatWorld where
  directory := ⟨⟨[⟨"u1", "t1", "ada"⟩], by decide⟩, ∅, ∅, nodup_nil⟩

def libPackage : PackageDir := ⟨"t1", "ada", "lib", by decide⟩

def libRequest (tarball : Bytes) : PublishRequest where
  tenantId := "t1"
  token := some ⟨some "u1"⟩
  scope := "ada"
  name := "lib"
  version := "1.0.0"
  body := some tarball

def libUpload (tarball : Bytes) : LuatRequest := .publish (libRequest tarball)

theorem emptyRegistry_sound : FilesSound libServer emptyRegistry.files := by
  intro package
  constructor
  · rintro _ ⟨⟩
  · rintro _ ⟨⟩
  · exact .nil

def twoUploads (schedule : List (ℕ × LuatMoment)) :
    List (ℕ × Event LuatCalls LuatWorld LuatMoment) :=
  registryHistory libServer 1 [(2, libUpload [1]), (2, libUpload [2])] emptyRegistry schedule

def turns (thread count : ℕ) : List (ℕ × LuatMoment) := replicate count (thread, {})

/-- The second publish finds the lock taken, and then the version. -/
def waiting : List (ℕ × LuatMoment) := turns 1 8 ++ turns 2 6 ++ turns 1 17 ++ turns 2 4

theorem registry_sound_twoUploads :
      (∀ event ∈ twoUploads waiting, ¬ Detaches event.2.op event.2.decision) ∧
      (∃ event ∈ twoUploads waiting,
        ((event.2.after luatHandle).files libPackage).published.map IndexEntry.cksum =
          ["sha256:4bf5122f344554c53bde2ebb8cd2b7e3d1600ad631c385a5d7cce23c7785459a"]) ∧
      RegistrySound libServer (twoUploads waiting) := by
  have attached : ∀ event ∈ twoUploads waiting, ¬ Detaches event.2.op event.2.decision := by
    decide +kernel
  exact ⟨attached, by decide +kernel, registry_sound libServer 1 _ emptyRegistry_sound rfl attached⟩

/-- The first publish is dropped while it writes its tarball, which lands after the second one. -/
def lateLanding : List (ℕ × LuatMoment) :=
  turns 1 10 ++ [(1, { detaches := true })] ++ turns 1 1 ++ turns 2 25 ++ turns 0 1

/-- **A tarball that lands after its request was dropped replaces the one of a later publish**,
whose line has the checksum of other bytes. -/
theorem late_tarball : FilesSound libServer emptyRegistry.files ∧ emptyRegistry.inFlight = [] ∧
      ¬ RegistrySound libServer (twoUploads lateLanding) := by
  refine ⟨emptyRegistry_sound, rfl, fun holds => ?_⟩
  have replaced : ∃ event ∈ twoUploads lateLanding, ∃ entry ∈
      ((event.2.after luatHandle).files libPackage).entries,
        entry.cksum = "sha256:dbc1b4c900ffe48d575b5da5c638040125f65db0fe3e24494b76ea986457d986" ∧
        ((event.2.after luatHandle).files libPackage).tarballs entry.vers = some [1] := by
    decide +kernel
  obtain ⟨event, member, entry, inIndex, isCksum, isTarball⟩ := replaced
  obtain ⟨bytes, isStored, sameCksum⟩ :=
    ((holds.sound event member).2 libPackage).tarballs entry inIndex
  obtain rfl : [1] = bytes := Option.some.inj (isTarball.symm.trans isStored)
  rw [isCksum] at sameCksum
  revert sameCksum
  decide +kernel

end Example

end Muli.Luat
