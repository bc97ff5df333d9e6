/-
**Packages and their directories.**

Where two underscores in a name meet the two that stand for a slash, two packages share a directory,
and the listing shows a name that nobody published.

* `packages_apart` — **unambiguous names have directories of their own, which publishes to other
  such packages leave alone; and the listing shows exactly the published names if and only if these
  are unambiguous and no other directory was made.**
-/

import Muli.Registry.Npm.Publish

namespace Muli.Npm

open Interaction List

def published (answers : List (String × Except Response Response)) : List String :=
  answers.filterMap fun answer => answer.2.toOption.map fun _ => answer.1

/-! ### Directories that exist -/

variable {store : NpmStore}

theorem NpmStore.mem_dirs_change {f : Folder → Folder} :
    dir' ∈ (store.change dir f).dirs ↔ dir = dir' ∨ dir' ∈ store.dirs := by
  show dir' ∈ (store.change dir f).folders.rows.map Prod.fst ↔ _ ∨
    dir' ∈ store.folders.rows.map Prod.fst
  rw [← Assoc.isSome_get, ← Assoc.isSome_get]
  show ((store.change dir f).folder dir').isSome ↔ _ ∨ (store.folder dir').isSome
  rw [folder_change]
  split_ifs with same <;> simp [same]

/-- Every directory is that of some package. -/
def NpmStore.Named (store : NpmStore) :
    Prop := ∀ dir ∈ store.dirs, ∃ name, packageDir name = some dir

theorem named_npmHandle (named : store.Named) (moment : NpmMoment) (call : NpmCall) :
    (npmHandle moment call store).2.Named := by
  intro dir isDir
  rcases npmHandle_cases moment call store with same | ⟨package, dir', f, -, isPackage, changed⟩
  · unfold NpmStore.dirs at isDir
    rw [same] at isDir
    exact named dir isDir
  · rw [changed, NpmStore.mem_dirs_change] at isDir
    rcases isDir with rfl | earlier
    · exact ⟨package, isPackage⟩
    · exact named dir earlier

theorem mem_dirs_npmHandle (isDir : dir ∈ store.dirs) (moment : NpmMoment) (call : NpmCall) :
    dir ∈ (npmHandle moment call store).2.dirs := by
  rcases npmHandle_cases moment call store with same | ⟨package, dir', f, -, isPackage, changed⟩
  · unfold NpmStore.dirs
    rw [same]
    exact isDir
  · rw [changed, NpmStore.mem_dirs_change]
    exact .inr isDir

/-! ### The directories of what was published -/

section Publishes

variable {config : NpmConfig} {store : NpmStore} {package : String}

theorem mem_dirs_of_writePackument
    (written : (store.writePackument outcome package packument).1 = .ok ()) :
    ∃ dir ∈ (store.writePackument outcome package packument).2.dirs,
    packageDir package = some dir := by
  unfold NpmStore.writePackument at written ⊢
  cases isDir : packageDir package with
  | none => simp [isDir] at written
  | some dir =>
    rw [isDir] at written
    cases outcome with
    | done => exact ⟨dir, NpmStore.mem_dirs_change.mpr (.inl rfl), rfl⟩
    | _ => cases written

theorem delivers_updatePackument_dir : Delivers npmHandle (updatePackument config package request)
      (fun _ store' => ∃ dir ∈ store'.dirs, packageDir package = some dir)
      (fun _ => True) store := by
  refine .call fun e => .call fun e' => ?_
  dsimp only
  cases request.versions.rows.find? _ with
  | some entry => exact .throw trivial
  | none =>
    refine (Delivers.anyway _ _).andThen fun packument store' _ => ?_
    refine .call fun e₂ => .call fun e₃ => ?_
    dsimp only [npmHandle]
    cases written : (store'.writePackument e₃.metadata package
        (packument.stamped request e.now e₂.uuid)).1 with
    | error error => exact .throw trivial
    | ok _ => exact .pure (mem_dirs_of_writePackument written)

theorem delivers_handlePublish_dir : Delivers npmHandle (handlePublish config package body)
      (fun _ store' => ∃ dir ∈ store'.dirs, packageDir package = some dir)
      (fun _ => True) store := by
  cases body with
  | error reason => exact .throw trivial
  | ok request =>
    unfold handlePublish
    dsimp only
    split_ifs
    · exact .throw trivial
    · cases validatePackageName package with
      | error error => exact .throw trivial
      | ok _ => exact (Delivers.anyway _ _).andThen fun _ _ _ => delivers_updatePackument_dir

/-- **Every published package has its directory.** -/
theorem ensures_publishAll (requests : List (String × Except String PublishRequest)) :
    (publishAll config requests).Ensures npmHandle
      (fun answers store' => ∀ name ∈ published answers, ∃ dir ∈ store'.dirs,
        packageDir name = some dir) store := by
  induction requests generalizing store with
  | nil => exact fun name mem => absurd mem not_mem_nil
  | cons entry later ih =>
    refine Prog.ensures_bind.mpr (.mono delivers_handlePublish_dir ?_)
    intro answer store' delivered
    cases answer with
    | error response => exact Prog.ensures_bind.mpr (ih.mono fun answers store'' earlier => earlier)
    | ok response =>
      obtain ⟨dir, isDir, isPackage⟩ := delivered
      -- the directory that is there now stays
      have stays : (publishAll config later).Ensures npmHandle (fun _ store'' => dir ∈ store''.dirs)
          store' :=
        Prog.ensures_of_step (fun e call _ isDir => mem_dirs_npmHandle isDir e call) _ isDir
      refine Prog.ensures_bind.mpr ((ih.and stays).mono fun answers store'' both => ?_)
      intro name mem
      rcases mem_cons.mp mem with rfl | isLater
      · exact ⟨dir, both.2, isPackage⟩
      · exact both.1 name isLater

end Publishes

/-! ### Packages apart -/

section Listing

variable {store : NpmStore} {names : List String}

theorem mem_listPackages : name ∈ store.listPackages ↔ ∃ dir ∈ store.dirs,
    restoreName dir = name := by
  unfold NpmStore.listPackages
  rw [(perm_insertionSort _ _).mem_iff, mem_map]

theorem nodup_restored (named : store.Named) : (store.dirs.map restoreName).Nodup := by
  refine .map_on (fun dir isDir dir' isDir' same => ?_) store.folders.nodup
  obtain ⟨name, isName⟩ := named dir isDir
  obtain ⟨name', isName'⟩ := named dir' isDir'
  exact restoreName_injective isName isName' same

/-- **The listing shows exactly the names, if and only if they are unambiguous and have all the
directories.** -/
theorem listPackages_iff (named : store.Named)
    (has : ∀ name ∈ names, ∃ dir ∈ store.dirs, packageDir name = some dir) :
    store.listPackages = names.dedup.insertionSort (· ≤ ·) ↔
    (∀ name ∈ names, Unambiguous name.toList) ∧
        ∀ dir ∈ store.dirs, ∃ name ∈ names, packageDir name = some dir := by
  constructor
  · intro exactly
    have members : ∀ name, name ∈ names ↔ ∃ dir ∈ store.dirs, restoreName dir = name :=
      fun name => by
      rw [← mem_listPackages, exactly, (perm_insertionSort _ _).mem_iff, mem_dedup]
    refine ⟨fun name isName => ?_, fun dir isDir => ?_⟩
    · obtain ⟨dir, isDir, rfl⟩ := (members name).mp isName
      obtain ⟨name', isName'⟩ := named dir isDir
      rw [restoreName, String.toList_ofList]
      exact unambiguous_unescape (not_mem_packageDir isName')
    · have isName := (members (restoreName dir)).mpr ⟨dir, isDir, rfl⟩
      obtain ⟨dir', -, isDir'⟩ := has _ isName
      obtain ⟨name', isName'⟩ := named dir isDir
      exact ⟨restoreName dir, isName, by rw [isDir', packageDir_restoreName isName' isDir']⟩
  · rintro ⟨unambiguous, belongs⟩
    refine List.Perm.eq_of_sortedLE sortedLE_insertionSort sortedLE_insertionSort ?_
    refine (perm_insertionSort _ _).trans (.trans ?_ (perm_insertionSort _ _).symm)
    refine (perm_ext_iff_of_nodup (nodup_restored named) (nodup_dedup _)).mpr fun name => ?_
    rw [mem_map, mem_dedup]
    constructor
    · grind [restoreName_iff]
    · grind [restoreName_iff]

end Listing

/-- **Unambiguous names are kept apart**, whatever is published to them and whatever fails, **and a
sequence of publishes lists exactly the published names if and only if these are unambiguous and
every directory is that of one of them.** -/
theorem packages_apart (config : NpmConfig) :
    (∀ name name' dir dir', packageDir name = some dir → packageDir name' = some dir' →
      Unambiguous name.toList → Unambiguous name'.toList → name ≠ name' →
        dir ≠ dir' ∧ ∀ body env store,
          ((handlePublish config name body).run.run npmHandle env store).2.folder dir' =
            store.folder dir') ∧
    ∀ requests env,
      let ran := (publishAll config requests).run npmHandle env {}
      ran.2.listPackages = (published ran.1).dedup.insertionSort (· ≤ ·) ↔
        (∀ name ∈ published ran.1, Unambiguous name.toList) ∧
          ∀ dir ∈ ran.2.dirs, ∃ name ∈ published ran.1, packageDir name = some dir := by
  constructor
  · intro name name' dir dir' isDir isDir' unambiguous unambiguous' other
    have apart : dir ≠ dir' := fun same =>
      other (packageDir_injective isDir (same ▸ isDir') unambiguous unambiguous')
    refine ⟨apart, fun body env store => ?_⟩
    have otherDir : packageDir name ≠ some dir' := by rwa [isDir, Ne, Option.some_inj]
    have kept : (handlePublish config name body).run.Ensures npmHandle
        (fun _ store' => store'.folder dir' = store.folder dir') store :=
      (handlePublish_callsOnly config name body).ensures
        (fun call writes e store' same => (folder_npmHandle writes otherDir e store').trans same)
        rfl
    exact kept.run env
  · intro requests env
    have start : NpmStore.Named {} := fun dir member => absurd member not_mem_nil
    have named : (publishAll config requests).Ensures npmHandle (fun _ store => store.Named) {} :=
      Prog.ensures_of_step (fun e call _ named => named_npmHandle named e call) _ start
    exact listPackages_iff (named.run env) ((ensures_publishAll requests).run env)

def anyFile : NpmConfig where
  tenantId := "tenant"
  decode text := some (text.toList.map fun c => UInt8.ofNat c.toNat)
  sha1Hex data := data.length.repr
  sha512Base64 data := data.length.repr
  parsesVersion _ := true

def publishOf (package version file : String) : String × Except String PublishRequest :=
  (package, .ok { name := package
                  versions := Assoc.set ∅ version none
                  attachments := Assoc.set ∅ file "contents" })

def publishesOf (requests : List (String × Except String PublishRequest)) :
    List (String × Except Response Response) × NpmStore :=
  (publishAll anyFile requests).run npmHandle (fun _ => {}) {}

def apartRequests : List (String × Except String PublishRequest) :=
  [publishOf "a" "1.0.0" "a-1.0.0.tgz", publishOf "@s/b" "1.0.0" "@s/b-1.0.0.tgz"]

theorem packages_apart_two : published (publishesOf apartRequests).1 = ["a", "@s/b"] ∧
      (publishesOf apartRequests).2.listPackages =
        (published (publishesOf apartRequests).1).dedup.insertionSort (· ≤ ·) :=
  ⟨by decide +kernel, ((packages_apart anyFile).2 apartRequests fun _ => {}).mpr
    (by decide +kernel)⟩

def sharingRequests : List (String × Except String PublishRequest) :=
  [publishOf "@a/b__c" "1.0.0" "b__c-1.0.0.tgz", publishOf "@a__b/c" "2.0.0" "c-2.0.0.tgz"]

/-- Two packages whose names are accepted: the second one is published into the directory of the
first, whose document it changes, and the listing shows a third name. -/
theorem packages_share : packageDir "@a/b__c" = packageDir "@a__b/c" ∧
      published (publishesOf sharingRequests).1 = ["@a/b__c", "@a__b/c"] ∧
      (publishesOf sharingRequests).2.listPackages = ["@a/b/c"] ∧
      (((publishesOf sharingRequests).2.readPackument .done "@a/b__c").map fun packument =>
        packument.versions.rows.map Prod.fst) = some ["1.0.0", "2.0.0"] := by
  decide +kernel

end Muli.Npm
