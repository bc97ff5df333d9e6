/-
**What a publish leaves when a store fails.**

A publish runs alone, and the calls that fail are logged. A failure before the index line is written
is undone; a failed reservation is not noticed, and neither is that the line stays when the summary
after it cannot be written.

* `publish_settled_iff` — **with at most one failure, an answered publish is settled exactly if the
  failed call was neither the reservation nor one of the summary's.**
-/

import Muli.Registry.Luat.Integrity

namespace Muli.Luat

open Interaction List

/-! ### Failures -/

/-- The calls after whose failure the answer is wrong: the reservation, and those of
`refreshSummary`. -/
def LuatCall.unsettles : LuatCall → Bool
  | quota (.tryReserve ..) => true
  | readSummary _ => true
  | readVersionMeta .. => true
  | atomicWrite _ (.summary _) => true
  | _ => false

def Benign (world : LuatWorld) : Prop := ∀ call ∈ world.failures, call.unsettles = false

variable {world after : LuatWorld}

theorem Benign.congr (benign : Benign world) (same : after.failures = world.failures) :
    Benign after := by
  unfold Benign
  rwa [same]

variable {call : LuatCall}

theorem Benign.snoc (benign : Benign world)
    (failed : after.failures = world.failures ++ [call]) (harmless : call.unsettles = false) :
    Benign after := by
  intro other mem
  rw [failed] at mem
  rcases mem_append.mp mem with old | new
  · exact benign other old
  · simp_all

theorem not_benign (failed : call ∈ world.failures) (unsettles : call.unsettles = true) :
    ¬ Benign world := by
  intro benign
  rw [benign call failed] at unsettles
  cases unsettles

/-! ### Accesses to files -/

section Accesses

variable {α : Type} {world : LuatWorld}

/-- What holds where a storage function fails; nothing is known where its request is dropped. -/
def onFailed (failed : LuatWorld → Prop) : Stop → LuatWorld → Prop
  | .failed, world => failed world
  | .dropped, _ => True

theorem onFailed.mono {failed failed' : LuatWorld → Prop}
    (weaker : ∀ world, failed world → failed' world) (stop : Stop) (world : LuatWorld)
    (holds : onFailed failed stop world) : onFailed failed' stop world := by
  cases stop with
  | failed => exact weaker world holds
  | dropped => trivial

theorem goOn_ends (failed : LuatWorld → Prop) :
    Ends luatHandle goOn (fun _ after => after = world) (onFailed failed) world := by
  intro moment
  show Prog.Ensures luatHandle
    (ExceptT.run (if moment.stays then pure () else throw Stop.dropped : StoreProg Unit)) _ world
  split_ifs
  · exact rfl
  · trivial

theorem access_ends {p : StoreProg α} {post : α → LuatWorld → Prop} {failed : LuatWorld → Prop}
    (ends : Ends luatHandle p post (onFailed failed) world) :
    Ends luatHandle (p >>= fun value => goOn >>= fun _ => pure value : StoreProg α) post
      (onFailed failed) world := by
  refine ends.next ?_
  intro value after holds
  refine (goOn_ends failed).andThen ?_ fun _ _ holds' => holds'
  rintro _ _ rfl
  exact .pure holds

theorem reads_concludes (works : Bool) (call : LuatCall) (value : α) :
    Concludes (fun found after => found = value ∧ after = world)
      (onFailed fun after => after = world.fails call) (world.reads works call value).1
      (world.reads works call value).2 := by
  unfold LuatWorld.reads
  split_ifs
  · exact ⟨rfl, rfl⟩
  · exact rfl

section

variable (package : PackageDir)

theorem readIndex_ends (world : LuatWorld) : Ends luatHandle (readIndex package)
      (fun lines after => lines = (world.files package).index ∧ after = world)
      (onFailed fun after => after = world.fails (.readIndex package)) world :=
  access_ends fun _ => reads_concludes ..

theorem readSummary_ends (world : LuatWorld) : Ends luatHandle (readSummary package)
      (fun summary after => summary = (world.files package).summary ∧ after = world)
      (onFailed fun after => after = world.fails (.readSummary package)) world :=
  access_ends fun _ => reads_concludes ..

theorem readVersionMeta_ends (version : String) (world : LuatWorld) :
    Ends luatHandle (readVersionMeta package version)
      (fun page after => page = (world.files package).metas version ∧ after = world)
      (onFailed fun after => after = world.fails (.readVersionMeta package version)) world :=
  access_ends fun _ => reads_concludes ..

theorem atomicWrite_ends (file : FileWrite) (world : LuatWorld) :
    Ends luatHandle (atomicWrite package file) (fun _ after => after = world.put package file)
      (onFailed fun after => after = world.fails (.atomicWrite package file)) world := by
  have write : Ends luatHandle (.mk (.perform (I := LuatCalls) (.atomicWrite package file)))
      (fun _ after => after = world.put package file)
      (onFailed fun after => after = world.fails (.atomicWrite package file)) world := by
    intro moment
    unfold luatHandle
    dsimp only
    split_ifs
    · trivial
    · exact rfl
    · exact rfl
  refine write.next ?_
  rintro _ _ rfl
  exact goOn_ends _

end

end Accesses

/-! ### Storing a version -/

section Storing

variable {package : PackageDir} {entry : IndexEntry} {world : LuatWorld}

theorem index_put (world : LuatWorld) (package : PackageDir) (file : FileWrite) :
    ((world.put package file).files package).index = ((world.files package).write file).index :=
  congrArg PackageFiles.index (Function.update_self ..)

/-- **The summary is refreshed**, or one of its calls fails. -/
theorem refreshSummary_ends (semver : Semver) (entries : List IndexEntry)
    (updatedAt : Option Timestamp)
    (world : LuatWorld) : Ends luatHandle (refreshSummary semver package entries updatedAt)
      (fun _ after => ∃ summary, after = world.put package (.summary summary))
      (onFailed fun after => ∃ call : LuatCall, call.unsettles = true ∧ after = world.fails call)
      world := by
  refine (readSummary_ends package world).andThen ?_
    (onFailed.mono fun _ failed => ⟨_, rfl, failed⟩)
  rintro previous after ⟨-, isSame⟩
  rw [isSame]
  have page : Ends luatHandle (latestPage package ((latest semver entries).map IndexEntry.vers))
      (fun _ after => after = world)
      (onFailed fun after => ∃ call : LuatCall, call.unsettles = true ∧ after = world.fails call)
      world := by
    cases (latest semver entries).map IndexEntry.vers with
    | none => exact .pure rfl
    | some version =>
      exact (readVersionMeta_ends package version world).mono (fun _ _ holds => holds.2)
        (onFailed.mono fun _ failed => ⟨_, rfl, failed⟩)
  refine page.next ?_
  intro page after isSame
  rw [isSame]
  have stamped : ∀ stamp failed, Ends luatHandle (orNow stamp) (fun _ after => after = world)
      (onFailed failed) world := by
    intro stamp failed
    cases stamp with
    | none => exact .lift fun _ => rfl
    | some stamp => exact .pure rfl
  refine (stamped _ _).next ?_
  intro stamp after isSame
  rw [isSame]
  exact (atomicWrite_ends package _ world).mono (fun _ _ holds => ⟨_, holds⟩)
    (onFailed.mono fun _ failed => ⟨_, rfl, failed⟩)

def withLine (package : PackageDir) (entry : IndexEntry) (world : LuatWorld) : List IndexLine :=
  renderIndex ((world.files package).entries ++ [entry])

theorem index_ne_withLine : (world.files package).index ≠ some (withLine package entry world) := by
  intro same
  have entries : (world.files package).entries = (world.files package).entries ++ [entry] := by
    conv_lhs => unfold PackageFiles.entries
    rw [same]
    exact parseIndex_renderIndex _
  have length := congrArg length entries
  rw [length_append, length_singleton] at length
  omega

structure Stored (package : PackageDir) (entry : IndexEntry) (world after : LuatWorld) : Prop where
  index : (after.files package).index = some (withLine package entry world)
  quotas : after.quotas = world.quotas
  failures : after.failures = world.failures

/-- What a failed `storeVersion` leaves: the line is there if the failure came after it. -/
structure Unstored (package : PackageDir) (entry : IndexEntry) (world after : LuatWorld)
    (call : LuatCall) : Prop where
  index : (after.files package).index =
    if call.unsettles then some (withLine package entry world) else (world.files package).index
  quotas : after.quotas = world.quotas
  failures : after.failures = world.failures ++ [call]

theorem exists_unstored {before : LuatWorld} (harmless : call.unsettles = false)
    (index : (before.files package).index = (world.files package).index)
    (quotas : before.quotas = world.quotas) (failures : before.failures = world.failures)
    (failed : after = before.fails call) : ∃ call, Unstored package entry world after call := by
  subst failed
  refine ⟨call, ?_, quotas, congrArg (· ++ [call]) failures⟩
  rw [harmless]
  exact index

/-- **A version is stored, or a call fails** before or after its line is written. -/
theorem storeVersion_ends (tarball : Bytes) (parses : (semver.parse page.vers).isSome = true) :
    Ends luatHandle (storeVersion semver package tarball page entry)
      (fun _ after => Stored package entry world after)
      (onFailed fun after => ∃ call, Unstored package entry world after call) world := by
  unfold storeVersion
  obtain ⟨version, isParsed⟩ := Option.isSome_iff_exists.mp parses
  rw [isParsed]
  -- the files before the line is written
  let tarred := world.put package (.tarball page.vers tarball)
  let paged := tarred.put package (.pageData page.vers page)
  have tarredIndex : (tarred.files package).index = (world.files package).index :=
    index_put world package _
  have pagedIndex : (paged.files package).index = (world.files package).index :=
    (index_put tarred package _).trans tarredIndex
  refine (atomicWrite_ends package _ world).andThen ?_ (onFailed.mono fun _ =>
    exists_unstored rfl rfl rfl rfl)
  intro _ after isTarred
  rw [isTarred]
  refine (atomicWrite_ends package _ tarred).andThen ?_ (onFailed.mono fun _ =>
    exists_unstored rfl tarredIndex rfl rfl)
  intro _ after isPaged
  rw [isPaged]
  refine (readIndex_ends package paged).andThen ?_ (onFailed.mono fun _ =>
    exists_unstored rfl pagedIndex rfl rfl)
  rintro lines after ⟨isIndex, isRead⟩
  rw [isRead]
  refine (atomicWrite_ends package _ paged).andThen ?_ (onFailed.mono fun _ =>
    exists_unstored rfl pagedIndex rfl rfl)
  intro _ after isWritten
  have entries : (lines.map parseIndex).getD [] = (world.files package).entries := by
    rw [isIndex, pagedIndex]
    rfl
  rw [isWritten, entries]
  let written := paged.put package (.index (withLine package entry world))
  have writtenIndex : (written.files package).index = some (withLine package entry world) :=
    index_put paged package _
  refine (refreshSummary_ends semver _ _ written).mono ?_ (onFailed.mono ?_)
  · rintro _ _ ⟨summary, rfl⟩
    exact ⟨(index_put written package _).trans writtenIndex, rfl, rfl⟩
  · rintro _ ⟨call, unsettles, rfl⟩
    refine ⟨call, ?_, rfl, rfl⟩
    rw [unsettles]
    exact writtenIndex

end Storing

/-! ### Bytes that are charged -/

/-- The bytes that are recorded for a tarball, if there is a quota store. -/
def LuatServer.charge (server : LuatServer) (size : ℕ) : ℕ := if server.quotaStore then size else 0

section QuotaCalls

variable {α : Type} {moment : LuatMoment} {call : QuotaCall} {world : LuatWorld}

theorem luatHandle_quota_works (works : moment.works = true) :
    luatHandle moment (.quota call) world =
      ((quotaHandle true call world.quotas).1,
        { world with quotas := (quotaHandle true call world.quotas).2 }) := by
  unfold luatHandle
  dsimp only
  rw [works]
  rfl

theorem luatHandle_quota_fails (fails : moment.works = false) :
      luatHandle moment (.quota call) world =
      ((quotaHandle false call world.quotas).1, world.fails (.quota call)) := by
  unfold luatHandle
  dsimp only
  rw [fails]
  cases call <;> rfl

theorem ensures_overQuota_call {f : call.Answer → Prog QuotaCalls α} {post : α → LuatWorld → Prop} :
    (overQuota (Prog.perform (I := QuotaCalls) call >>= f)).Ensures luatHandle post world ↔
      ∀ moment, (overQuota (f (luatHandle moment (.quota call) world).1)).Ensures luatHandle post
        (luatHandle moment (.quota call) world).2 := Iff.rfl

end QuotaCalls

section Charges

variable (server : LuatServer)

theorem charge_of_free (free : size = 0 ∨ (!server.quotaStore) = true) :
    server.charge size = 0 := by
  rcases free with rfl | isOff
  · exact ite_self 0
  · exact if_neg (by simpa using isOff)

/-- What a reservation leaves: the bytes are charged, or its call failed and nothing is. -/
def Reserved (tenantId : String) (size : ℕ) (world after : LuatWorld) : Prop :=
  after.files = world.files ∧
    (after.failures = world.failures ∧
        after.quotas.usage tenantId = world.quotas.usage tenantId + server.charge size ∨
      after.failures = world.failures ++ [.quota (.tryReserve tenantId size)] ∧
        after.quotas = world.quotas ∧ server.charge size ≠ 0)

theorem reserve_ends (tenantId : String) (size : ℕ) (world : LuatWorld) : Ends luatHandle
      (ExceptT.mk (overQuota (reserveQuota server.quotaStore tenantId size).run))
      (fun _ after => Reserved server tenantId size world after)
      (fun _ after => after = world) world := by
  unfold reserveQuota
  split_ifs with free
  · refine ⟨rfl, .inl ⟨rfl, ?_⟩⟩
    rw [charge_of_free server free, Nat.add_zero]
  · obtain ⟨positive, isOn⟩ : size ≠ 0 ∧ server.quotaStore = true := by simpa using free
    have charged : server.charge size = size := if_pos isOn
    refine ensures_overQuota_call.mpr fun moment => ?_
    cases works : moment.works with
    | true =>
      rw [luatHandle_quota_works works]
      rcases QuotaTable.tryReserve_spec world.quotas tenantId size with
        ⟨granted, -, usage, -⟩ | ⟨refused, same⟩
      · have answer : (quotaHandle true (.tryReserve tenantId size) world.quotas).1 = .ok true :=
          congrArg Except.ok granted
        rw [answer]
        exact ⟨rfl, .inl ⟨rfl, by rw [charged]; exact usage⟩⟩
      · have answer : (quotaHandle true (.tryReserve tenantId size) world.quotas).1 = .ok false :=
          congrArg Except.ok refused
        rw [answer]
        exact congrArg (fun quotas => { world with quotas }) same
    | false =>
      rw [luatHandle_quota_fails works]
      exact ⟨rfl, .inr ⟨rfl, rfl, by rw [charged]; exact positive⟩⟩

/-- **What was charged is given back**, or the call failed. -/
theorem release_ensures (tenantId : String) (size : ℕ) (world : LuatWorld) :
    (overQuota (adjustQuotaUsage server.quotaStore tenantId (-(size : ℤ)))).Ensures luatHandle
      (fun _ after => after.files = world.files ∧ (after.failures = world.failures ∧
            after.quotas.usage tenantId = world.quotas.usage tenantId - server.charge size ∨
          world.failures.length < after.failures.length)) world := by
  unfold adjustQuotaUsage
  split_ifs with free
  · refine ⟨rfl, .inl ⟨rfl, ?_⟩⟩
    rw [charge_of_free server (free.imp_left fun zero => by omega), Nat.sub_zero]
  · have isOn : server.quotaStore = true := by
      cases isStore : server.quotaStore with
      | true => rfl
      | false => exact absurd (.inr (by rw [isStore]; rfl)) free
    have charged : server.charge size = size := if_pos isOn
    refine ensures_overQuota_call.mpr fun moment => ?_
    cases works : moment.works with
    | true =>
      rw [luatHandle_quota_works works]
      refine ⟨rfl, .inl ⟨rfl, ?_⟩⟩
      refine (QuotaTable.adjustUsage_spec ..).1.trans ?_
      omega
    | false =>
      rw [luatHandle_quota_fails works]
      -- the second attempt does not undo that the first one failed
      have longer : world.failures.length < (world.failures ++
          [LuatCall.quota (.adjustUsage tenantId (-(size : ℤ)))]).length := by simp
      refine ensures_overQuota_call.mpr fun moment => ?_
      cases works : moment.works with
      | true =>
        rw [luatHandle_quota_works works]
        exact ⟨rfl, .inr longer⟩
      | false =>
        rw [luatHandle_quota_fails works]
        refine ⟨rfl, .inr (longer.trans ?_)⟩
        show _ < (world.failures ++ [_] ++ [_]).length
        simp

end Charges

/-! ### Under the lock -/

/-- What holds where a handler answers with an error; nothing is known where it does not answer. -/
def onAnswer (refused : LuatWorld → Prop) : Option Response → LuatWorld → Prop
  | some _, world => refused world
  | none, _ => True

/-- What an error leaves of an index and a usage. -/
inductive Refused (package : PackageDir) (index : Option (List IndexLine)) (usage : ℕ)
    (after : LuatWorld) : Prop where
  | unchanged (sameIndex : (after.files package).index = index)
      (sameUsage : after.quotas.usage package.tenantId = usage) (benign : Benign after)
  | visible (changed : (after.files package).index ≠ index) (unsettled : ¬ Benign after)
  | twice (several : 2 ≤ after.failures.length)

/-- What a success leaves of an index and a usage. -/
inductive Accepted (server : LuatServer) (package : PackageDir) (version : String) (size usage : ℕ)
    (after : LuatWorld) : Prop where
  | charged (listed : ∃ entry ∈ (after.files package).entries, entry.vers = version)
      (grown : after.quotas.usage package.tenantId = usage + server.charge size)
      (benign : Benign after)
  | uncharged (sameUsage : after.quotas.usage package.tenantId = usage)
      (positive : server.charge size ≠ 0) (unsettled : ¬ Benign after)

/-- What a success leaves of what an upload found. -/
abbrev Upload.Accepted (server : LuatServer) (upload : Upload) (world : LuatWorld) :
    LuatWorld → Prop :=
  Luat.Accepted server upload.package upload.version upload.tarball.length
    (world.quotas.usage upload.package.tenantId)

/-- What an error leaves of what an upload found. -/
abbrev Upload.Refused (upload : Upload) (world : LuatWorld) : LuatWorld → Prop :=
  Luat.Refused upload.package (world.files upload.package).index
    (world.quotas.usage upload.package.tenantId)

theorem versionExists_ends (semver : Semver) (package : PackageDir) (version : String)
    (world : LuatWorld) :
    Ends luatHandle (versionExists semver package version) (fun _ after => after = world)
      (onFailed fun after => after = world.fails (.readIndex package)) world := by
  refine (readIndex_ends package world).next ?_
  rintro lines _ ⟨-, rfl⟩
  cases lines <;> exact .pure rfl

section UnderLock

variable {server : LuatServer} {world : LuatWorld} {upload : Upload} (benign : Benign world)
include benign

section

variable (isReserved : Reserved server upload.package.tenantId upload.tarball.length world reserved)
include isReserved

theorem accepted_of_stored (stored : Stored upload.package (upload.entry server) reserved after) :
    upload.Accepted server world after := by
  rcases isReserved with ⟨-, ⟨failures, usage⟩ | ⟨failures, quotas, positive⟩⟩
  · refine .charged ⟨upload.entry server, ?_, rfl⟩ ?_
      (benign.congr (stored.failures.trans failures))
    · unfold PackageFiles.entries
      rw [stored.index]
      show _ ∈ parseIndex (renderIndex _)
      rw [parseIndex_renderIndex]
      exact mem_append_right _ mem_cons_self
    · rw [stored.quotas, usage]
  · have failed : LuatCall.quota (.tryReserve upload.package.tenantId upload.tarball.length) ∈
        after.failures := by
      rw [stored.failures, failures]
      exact mem_append_right _ mem_cons_self
    refine .uncharged ?_ positive (not_benign failed rfl)
    rw [stored.quotas, quotas]

theorem refused_of_unstored
    (isUnstored : Unstored upload.package (upload.entry server) reserved unstored call)
    (files : after.files = unstored.files)
    (released : after.failures = unstored.failures ∧ after.quotas.usage upload.package.tenantId =
      unstored.quotas.usage upload.package.tenantId - server.charge upload.tarball.length ∨
      unstored.failures.length < after.failures.length) : upload.Refused world after := by
  have length : unstored.failures.length = reserved.failures.length + 1 := by
    rw [isUnstored.failures, length_append, length_singleton]
  obtain ⟨sameFiles, ⟨failures, usage⟩ | ⟨failures, quotas, positive⟩⟩ := isReserved
  · rcases released with ⟨sameFailures, givenBack⟩ | longer
    · have afterwards : after.failures = world.failures ++ [call] := by
        rw [sameFailures, isUnstored.failures, failures]
      have index : (after.files upload.package).index =
          if call.unsettles then some (withLine upload.package (upload.entry server) reserved)
          else (reserved.files upload.package).index := by
        rw [files]
        exact isUnstored.index
      cases unsettles : call.unsettles with
      | true =>
        rw [unsettles, if_pos rfl] at index
        have failed : call ∈ after.failures := by grind
        refine .visible ?_ (not_benign failed unsettles)
        rw [index, ← sameFiles]
        exact fun same => index_ne_withLine same.symm
      | false =>
        rw [unsettles] at index
        refine .unchanged (index.trans (by rw [sameFiles]; rfl)) ?_
          (benign.snoc afterwards unsettles)
        rw [givenBack, isUnstored.quotas, usage]
        omega
    · exact .twice (by omega)
  · -- the reservation had failed before
    have before : reserved.failures.length = world.failures.length + 1 := by
      rw [failures, length_append, length_singleton]
    rcases released with ⟨sameFailures, -⟩ | longer
    · exact .twice (by rw [sameFailures]; omega)
    · exact .twice (by omega)

end

variable (parses : (server.semver.parse upload.version).isSome = true)
include parses

/-- **Reserve, store, and give back where that fails.** -/
theorem storeReserved_ends : Ends luatHandle (storeReserved server upload)
      (fun response after => response.status = 201 ∧ upload.Accepted server world after)
      (onAnswer (upload.Refused world)) world := by
  have reserves : Ends luatHandle (.adapt some (.mk (overQuota (reserveQuota
      server.quotaStore upload.package.tenantId upload.tarball.length).run)) : HandlerProg Unit)
      (fun _ after => Reserved server upload.package.tenantId upload.tarball.length world after)
      (fun _ after => after = world) world := .adapt some (reserve_ends server _ _ world)
  refine reserves.andThen ?_ ?_
  swap
  · rintro stop _ rfl
    cases stop with
    | none => trivial
    | some response => exact .unchanged rfl rfl benign
  intro _ reserved isReserved
  have stays : Ends luatHandle (goOn.adapt fun _ => none : HandlerProg Unit)
      (fun _ after => after = reserved) (fun stop _ => stop = none) reserved :=
    .adapt _ ((goOn_ends fun _ => True).mono (fun _ _ => id) fun _ _ _ => rfl)
  refine stays.andThen ?_ ?_
  swap
  · rintro _ _ rfl
    trivial
  rintro _ _ rfl
  refine (Ends.lift (storeVersion_ends upload.tarball parses)).next ?_
  intro outcome after concludes
  cases outcome with
  | ok _ => exact .pure ⟨rfl, accepted_of_stored benign isReserved concludes⟩
  | error stop =>
    cases stop with
    | dropped => exact .throw trivial
    | failed =>
      obtain ⟨call, isUnstored⟩ := concludes
      refine (Ends.lift (release_ensures server _ _ after)).next ?_
      rintro _ released ⟨files, isReleased⟩
      exact .throw (refused_of_unstored benign isReserved isUnstored files isReleased)

theorem storeUpload_ends : Ends luatHandle (storeUpload server upload)
      (fun response after => response.status = 201 ∧ upload.Accepted server world after)
      (onAnswer (upload.Refused world)) world := by
  have looks : Ends luatHandle
      ((versionExists server.semver upload.package upload.version).adapt
        (Stop.answer "failed to read package index"))
      (fun _ after => after = world) (onAnswer (upload.Refused world)) world := by
    refine .adapt _ ((versionExists_ends _ _ _ world).mono (fun _ _ => id)
      fun stop after holds => ?_)
    cases stop with
    | dropped => trivial
    | failed =>
      obtain rfl : after = _ := holds
      exact .unchanged rfl rfl (benign.snoc rfl rfl)
  refine looks.next ?_
  rintro isThere _ rfl
  cases isThere with
  | true => exact .throw (.unchanged rfl rfl benign)
  | false => exact storeReserved_ends benign parses

end UnderLock

/-! ### The whole request -/

section Requests

variable {world : LuatWorld}

theorem acquire_ends (waits : ℕ) (world : LuatWorld) :
    Ends luatHandle (acquire waits) (fun _ after => after = { world with locked := true })
      (fun stop _ => stop = none) world := by
  induction waits generalizing world with
  | zero => exact .throw rfl
  | succ waits ih =>
    intro moment
    show Prog.Ensures luatHandle
      (ExceptT.run (if !world.locked then pure () else acquire waits : HandlerProg Unit)) _
      { world with locked := true }
    split_ifs
    · exact rfl
    · exact ih { world with locked := true }

theorem withLock_ends {α : Type} {body : HandlerProg α} {post : α → LuatWorld → Prop}
    {refused : LuatWorld → Prop} (waits : ℕ)
    (ends : Ends luatHandle body (fun value after => post value { after with locked := false })
      (onAnswer fun after => refused { after with locked := false })
      { world with locked := true }) :
    Ends luatHandle (withLock waits body) post (onAnswer refused) world := by
  refine (acquire_ends waits world).andThen ?_ ?_
  swap
  · rintro _ _ rfl
    trivial
  rintro _ _ rfl
  refine (Ends.lift ends).next ?_
  intro outcome after concludes _
  cases outcome with
  | ok value => exact concludes
  | error stop => cases stop <;> exact concludes

/-- The files and the quotas are as before, and what has failed is harmless. -/
structure Undisturbed (world after : LuatWorld) : Prop where
  files : after.files = world.files
  quotas : after.quotas = world.quotas
  benign : Benign after

theorem undisturbed_step (looks : call.Looks) (moment : LuatMoment)
    (undisturbed : Undisturbed world after) :
    Undisturbed world (luatHandle moment call after).2 := by
  obtain ⟨files, quotas, benign⟩ := undisturbed
  cases call with
  | identity call =>
    unfold luatHandle
    dsimp only
    split_ifs
    · exact ⟨files, quotas, benign⟩
    · exact ⟨files, quotas, benign.snoc rfl rfl⟩
  | readIndex package =>
    unfold luatHandle LuatWorld.reads
    dsimp only
    split_ifs
    · exact ⟨files, quotas, benign⟩
    · exact ⟨files, quotas, benign.snoc rfl rfl⟩
  | now | stillThere => exact ⟨files, quotas, benign⟩
  | _ => exact looks.elim

structure Upload.Of (server : LuatServer) (request : PublishRequest) (upload : Upload) : Prop where
  package : packageDir request.tenantId request.scope request.name = some upload.package
  version : upload.version = request.version
  body : request.body = some upload.tarball
  parses : (server.semver.parse upload.version).isSome = true

theorem authorize_unparsed (unparsed : semver.parse version = none) (tenantId : String)
    (token : Option RegistryToken) (scope name : String) :
    ∃ response, authorize semver tenantId token scope name version = throw response := by
  unfold authorize Semver.parseVersion
  rw [unparsed]
  cases validateParts scope name <;> exact ⟨_, rfl⟩

theorem prepare_delivers (server : LuatServer) (request : PublishRequest) (world : LuatWorld) :
    Delivers luatHandle (prepare server request) (fun upload _ => upload.Of server request)
      (fun _ => True) world := by
  unfold prepare
  cases isParsed : server.semver.parse request.version with
  | none =>
    obtain ⟨response, isThrow⟩ := authorize_unparsed isParsed request.tenantId request.token
      request.scope request.name
    rw [isThrow]
    trivial
  | some parsed =>
    refine (Delivers.anyway _ world).andThen fun _ world _ => ?_
    split_ifs
    · trivial
    cases isPackage : packageDir request.tenantId request.scope request.name with
    | none => trivial
    | some package =>
      refine (Delivers.anyway _ world).andThen fun isThere world _ => ?_
      split_ifs
      · trivial
      cases isBody : readBody request.body with
      | none => trivial
      | some tarball =>
        dsimp only
        cases checkTarball server request.scope request.name request.version tarball with
        | error response => trivial
        | ok checked =>
          refine (Delivers.anyway _ world).andThen fun stamp world _ => ?_
          refine .pure ⟨isPackage, rfl, (Option.filter_eq_some_iff.mp isBody).1, ?_⟩
          rw [isParsed]
          rfl

theorem prepare_ends (server : LuatServer) (request : PublishRequest) (benign : Benign world) :
    Ends luatHandle (prepare server request)
      (fun upload after => upload.Of server request ∧ Undisturbed world after)
      (fun _ after => Undisturbed world after) world := by
  have undisturbed : (prepare server request).run.Ensures luatHandle
      (fun _ after => Undisturbed world after) world :=
    (prepare_looks server request).ensures (fun _ looks moment _ => undisturbed_step looks moment)
      ⟨rfl, rfl, benign⟩
  refine ((prepare_delivers server request world).and undisturbed).mono
    fun outcome after holds => ?_
  cases outcome with
  | ok upload => exact holds
  | error stop => exact holds.2

/-- **An answer is either way what was found when it was given**: a success, or an error before the
lock or under it. -/
theorem publish_ends (server : LuatServer) (request : PublishRequest) (waits : ℕ)
    (benign : Benign world) : Ends luatHandle (publish server waits request)
      (fun response after => ∃ upload : Upload, upload.Of server request ∧ response.status = 201 ∧
        upload.Accepted server world after)
      (onAnswer fun after => Undisturbed world after ∨ ∃ upload : Upload, upload.Of server request ∧
        upload.Refused world after) world := by
  refine (prepare_ends server request benign).andThen ?_ ?_
  swap
  · intro stop after undisturbed
    cases stop with
    | none => trivial
    | some response => exact .inl undisturbed
  rintro upload looked ⟨isUpload, files, quotas, benign⟩
  refine withLock_ends waits ?_
  have benign' : Benign { looked with locked := true } := benign
  refine (storeUpload_ends benign' isUpload.parses).mono ?_ ?_
  · rintro response after ⟨created, accepted⟩
    refine ⟨upload, isUpload, created, ?_⟩
    unfold Upload.Accepted
    rw [← quotas]
    cases accepted with
    | charged listed grown benign => exact .charged listed grown benign
    | uncharged sameUsage positive unsettled => exact .uncharged sameUsage positive unsettled
  · intro stop after refused
    cases stop with
    | none => trivial
    | some response =>
      refine .inr ⟨upload, isUpload, ?_⟩
      unfold Upload.Refused
      rw [← files, ← quotas]
      cases refused with
      | unchanged sameIndex sameUsage benign => exact .unchanged sameIndex sameUsage benign
      | visible changed unsettled => exact .visible changed unsettled
      | twice several => exact .twice several

end Requests

/-! ### Settled answers -/

/-- **The answer agrees with what is stored and recorded.** Usage is recorded if there is a quota
store. -/
def Settled (server : LuatServer) (request : PublishRequest) (before after : LuatWorld) :
    Except (Option Response) Response → Prop
  | .ok response => response.status = 201 ∧ ∃ package tarball,
      packageDir request.tenantId request.scope request.name = some package ∧
        request.body = some tarball ∧
        (∃ entry ∈ (after.files package).entries, entry.vers = request.version) ∧
        (server.quotaStore = true → after.quotas.usage request.tenantId =
          before.quotas.usage request.tenantId + tarball.length)
  | .error (some _) =>
    (∀ package, packageDir request.tenantId request.scope request.name = some package →
      (after.files package).index = (before.files package).index) ∧
      (server.quotaStore = true →
        after.quotas.usage request.tenantId = before.quotas.usage request.tenantId)
  | .error none => True

section Settled

variable {server : LuatServer} {request : PublishRequest} {before after : LuatWorld}
    {upload : Upload}

theorem Upload.Of.tenantId (isUpload : upload.Of server request) :
    upload.package.tenantId = request.tenantId := by
  have isPackage := isUpload.package
  unfold packageDir at isPackage
  split_ifs at isPackage
  rw [← Option.some.inj isPackage]

theorem Undisturbed.settled (undisturbed : Undisturbed before after) (response : Response) :
    Settled server request before after (.error (some response)) := by
  obtain ⟨files, quotas, -⟩ := undisturbed
  exact ⟨fun _ _ => by rw [files], fun _ => by rw [quotas]⟩

theorem settled_refused_iff (isUpload : upload.Of server request) (response : Response)
    (refused : upload.Refused before after) (single : after.failures.length ≤ 1) :
    Settled server request before after (.error (some response)) ↔ Benign after := by
  cases refused with
  | unchanged sameIndex sameUsage benign =>
    refine iff_of_true ⟨fun package isPackage => ?_, fun _ => ?_⟩ benign
    · obtain rfl := Option.some.inj (isUpload.package.symm.trans isPackage)
      exact sameIndex
    · rwa [isUpload.tenantId] at sameUsage
  | visible changed unsettled =>
    exact iff_of_false (fun settled => changed (settled.1 _ isUpload.package)) unsettled
  | twice several => omega

theorem settled_accepted_iff (isUpload : upload.Of server request) (created : response.status = 201)
    (accepted : upload.Accepted server before after) :
    Settled server request before after (.ok response) ↔ Benign after := by
  cases accepted with
  | charged listed grown benign =>
    refine iff_of_true ⟨created, _, _, isUpload.package, isUpload.body, isUpload.version ▸ listed,
      fun isOn => ?_⟩ benign
    rw [isUpload.tenantId] at grown
    rw [grown]
    unfold LuatServer.charge
    rw [if_pos isOn]
  | uncharged sameUsage positive unsettled =>
    refine iff_of_false ?_ unsettled
    rintro ⟨-, package, tarball, -, isBody, -, grown⟩
    obtain rfl := Option.some.inj (isUpload.body.symm.trans isBody)
    have isOn : server.quotaStore = true := by
      by_contra isOff
      exact positive (if_neg isOff)
    have grew := grown isOn
    rw [isUpload.tenantId] at sameUsage
    have charge : server.charge upload.tarball.length = upload.tarball.length := if_pos isOn
    omega

end Settled

/-- **With at most one failure, an answered publish is settled exactly if the failed call was
neither the reservation nor one of the summary's.** -/
theorem publish_settled_iff (server : LuatServer) (waits : ℕ) (request : PublishRequest)
    (env : ℕ → LuatMoment) {world : LuatWorld} (none : world.failures = [])
    (single : ((publish server waits request).run.run luatHandle env world).2.failures.length ≤ 1)
    (answered : ((publish server waits request).run.run luatHandle env world).1 ≠ .error .none) :
    Settled server request world ((publish server waits request).run.run luatHandle env world).2
        ((publish server waits request).run.run luatHandle env world).1 ↔
      ∀ call ∈ ((publish server waits request).run.run luatHandle env world).2.failures,
        call.unsettles = false := by
  have benign : Benign world := by
    intro call member
    rw [none] at member
    cases member
  have ends := Prog.Ensures.run (publish_ends server request waits benign) env
  revert single answered ends
  generalize (publish server waits request).run.run luatHandle env world = result
  obtain ⟨outcome, after⟩ := result
  intro single answered ends
  cases outcome with
  | ok response =>
    obtain ⟨upload, isUpload, created, accepted⟩ := ends
    exact settled_accepted_iff isUpload created accepted
  | error stop =>
    cases stop with
    | none => exact absurd rfl answered
    | some response =>
      rcases ends with undisturbed | ⟨upload, isUpload, refused⟩
      · exact iff_of_true (undisturbed.settled response) undisturbed.benign
      · exact settled_refused_iff isUpload response refused single

/-! ### Failures of one call -/

def failingAt (n : ℕ) (turn : ℕ) : LuatMoment := { works := turn ≠ n }

def publishFailing (n : ℕ) : Except (Option Response) Response × LuatWorld :=
  (publish libServer 1 (libRequest [1])).run.run luatHandle (failingAt n) emptyRegistry

/-- The write of the tarball is the call 10. -/
theorem publish_settled_tarball : (publishFailing 10).2.failures.length = 1 ∧
      Settled libServer (libRequest [1]) emptyRegistry (publishFailing 10).2
      (publishFailing 10).1 := by
  have single : (publishFailing 10).2.failures.length = 1 := by decide +kernel
  refine ⟨single, (publish_settled_iff libServer 1 (libRequest [1]) (failingAt 10) rfl
    (le_of_eq single) ?_).mpr ?_⟩
  · decide +kernel
  · decide +kernel

/-- **A summary that cannot be written**, call 22: the answer is an error, and the version is in the
index. -/
theorem summary_unsettled : (publishFailing 22).2.failures.length = 1 ∧
      (publishFailing 22).1 = .error (some (errorJson 500 "failed to store package")) ∧
      ¬ Settled libServer (libRequest [1]) emptyRegistry (publishFailing 22).2
      (publishFailing 22).1 := by
  have answer : (publishFailing 22).1 =
      .error (some (errorJson 500 "failed to store package")) := by
    decide +kernel
  have changed : ((publishFailing 22).2.files libPackage).index ≠
      (emptyRegistry.files libPackage).index := by decide +kernel
  refine ⟨by decide +kernel, answer, ?_⟩
  rintro ⟨sameIndex, -⟩
  exact changed (sameIndex libPackage rfl)

end Muli.Luat
