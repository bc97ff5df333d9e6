/-
**What is recorded for a tenant against what is stored.**

Requests one after another, with no failure in between. A blob that is new is charged after it is
stored, unless the quota refuses it; a manifest is charged twice its bytes, whatever was stored
under its reference and its digest before; what is deleted is given back.

* `balanced_iff` — **the books balance after every request exactly when every request settles.**
-/

import Muli.Interaction.CheckThenAct
import Muli.Registry.Oci.Handlers

namespace Muli.Oci

open Interaction List OciStore

/-- The storage without failures; what is left to the environment are the new ids. -/
def steadyHandle (config : OciConfig) : Handler OciCalls OciStore String :=
  fun uuid => ociHandle config { uuid }

def OciStore.storedBytes (store : OciStore) : ℕ :=
  store.blobs.total length + store.manifests.total length

/-- **What is recorded is what is stored.** -/
def Balanced (config : OciConfig) (store : OciStore) : Prop :=
  store.quotas.usage config.tenantId = store.storedBytes
deriving Decidable

def OciStore.manifestBytes (store : OciStore) (name reference : String) : ℕ :=
  store.manifests.sizeAt length (name, reference)

/-- The contents that an upload has with the body of the request that completes it. -/
def OciStore.uploaded (store : OciStore) (id : String) (body : Bytes) : Bytes :=
  (store.uploads.get id).getD [] ++ body

abbrev Turn := OciRequest × (ℕ → String)

def serve (config : OciConfig) (turn : Turn) (store : OciStore) :
    Except Response Response × OciStore :=
  (handle config turn.1).run.run (steadyHandle config) turn.2 store

/-- **A request that is accepted charges what it stores.** The first case is met by every upload of
a blob that is there already, unless two contents of different lengths have one digest. -/
def Charges (config : OciConfig) (store : OciStore) : OciRequest → Prop
  | .completeUpload _ id digest body =>
    if (store.blobs.get digest).isSome then
      store.blobs.sizeAt length digest = (store.uploaded id body).length
    else store.uploaded id body = [] ∨
      store.quotas.Grants config.tenantId (store.uploaded id body).length
  | .putManifest name reference body =>
    (body = [] ∨ reference ≠ config.digestOf body) ∧ store.manifestBytes name reference = 0 ∧
      store.manifestBytes name (config.digestOf body) = 0
  | _ => True

instance (config : OciConfig) (store : OciStore) : (request : OciRequest) →
    Decidable (Charges config store request)
  | .completeUpload .. => inferInstanceAs (Decidable (ite ..))
  | .putManifest .. => inferInstanceAs (Decidable (_ ∧ _))
  | .startUpload .. | .patchUpload .. | .deleteManifest .. | .deleteBlob .. =>
    inferInstanceAs (Decidable True)

/-- The request is refused, or charges what it stores. -/
def Settles (config : OciConfig) (store : OciStore) (turn : Turn) : Prop :=
  (serve config turn store).1.isOk = true → Charges config store turn.1
deriving Decidable

def serveAll (config : OciConfig) (turns : List Turn) (store : OciStore) : OciStore :=
  turns.foldl (fun s turn => (serve config turn s).2) store

/-! ### Frames -/

section

variable {config : OciConfig} {store store' : OciStore}

theorem Balanced.of_sameFiles (balanced : Balanced config store) (same : SameFiles store store') :
    Balanced config store' := by
  obtain ⟨blobs, manifests, quotas⟩ := same
  unfold Balanced storedBytes
  rw [blobs, manifests, quotas]
  exact balanced

theorem require_ends (holds : Bool) (refusal : Response) :
    Ends (steadyHandle config) (require holds refusal) (fun _ s => s = store ∧ holds)
      (fun _ s => s = store) store := by
  unfold require
  split_ifs with isHeld
  · exact .pure ⟨rfl, isHeld⟩
  · exact .throw rfl

theorem checkBody_ends (body : Bytes) :
    Ends (steadyHandle config) (checkBody config body) (fun _ s => s = store) (fun _ s => s = store)
      store := by
  unfold checkBody checkQuota
  split_ifs
  · exact .pure rfl
  · exact .pure rfl
  · refine .call fun uuid => ?_
    dsimp only [steadyHandle, ociHandle]
    cases store.quotas.find config.tenantId with
    | none => exact .pure rfl
    | some quota => exact (require_ends ..).mono (fun _ _ kept => kept.1) fun _ _ => id

theorem append_ends (id : String) (body : Bytes) (failure : String) :
    Ends (steadyHandle config) (append id body failure)
      (fun _ s => SameFiles store s ∧ ∀ data, s.uploads.get id = some data →
        data = store.uploaded id body) (fun _ s => SameFiles store s) store := by
  unfold append
  split_ifs with empty
  · refine .pure ⟨⟨rfl, rfl, rfl⟩, fun data isData => ?_⟩
    unfold uploaded
    rw [isData, empty, append_nil]
    rfl
  · refine .call fun uuid => ?_
    dsimp only [steadyHandle, ociHandle]
    rcases store.appendUpload_cases config id body with ⟨error, refused⟩ | ⟨current,
      found, appended⟩
    · rw [refused]
      cases error <;> exact .throw ⟨rfl, rfl, rfl⟩
    · rw [appended]
      refine .pure ⟨⟨rfl, rfl, rfl⟩, fun data isData => ?_⟩
      rw [Assoc.get_set_self] at isData
      unfold uploaded
      rw [found, ← Option.some.inj isData]
      rfl

/-! ### The quota -/

theorem ensures_overQuota {α : Type} {p : Prog QuotaCalls α} {post : α → OciStore → Prop}
    (holds : p.Ensures (workingQuotas (E := String))
      (fun value quotas => post value { store with quotas })
      store.quotas) : (overQuota p).Ensures (steadyHandle config) post store :=
  Prog.Ensures.translate (H := steadyHandle config) (K := workingQuotas (E := String))
    (f := fun call => .perform (I := OciCalls) (.quota call))
    (fun quotas => ({ store with quotas } : OciStore)) (fun _ _ _ each uuid => each uuid) holds

theorem reserve_ends (hasStore : config.quotaStore = true) (bytes : ℕ) :
    Ends (steadyHandle config) (reserve config bytes)
      (fun _ s => (bytes = 0 ∨ store.quotas.Grants config.tenantId bytes) ∧ ∃ quotas,
        s = { store with quotas } ∧
          quotas.usage config.tenantId = store.quotas.usage config.tenantId + bytes)
      (fun _ s => s = store ∧ ¬ (bytes = 0 ∨ store.quotas.Grants config.tenantId bytes)) store := by
  unfold reserve
  rw [hasStore]
  refine ensures_overQuota (.mono (reserveQuota_works bytes) fun outcome quotas ends => ?_)
  cases outcome with
  | ok _ => exact ⟨ends.1, quotas, rfl, ends.2⟩
  | error refusal =>
    obtain ⟨rfl, refused⟩ := ends
    exact ⟨rfl, refused⟩

theorem adjust_ends (hasStore : config.quotaStore = true) (delta : ℤ) :
    Ends (steadyHandle config) (adjust config delta)
      (fun _ s => ∃ quotas, s = { store with quotas } ∧
        quotas.usage config.tenantId = (store.quotas.usage config.tenantId + delta).toNat)
      (fun _ _ => False) store := by
  unfold adjust
  rw [hasStore]
  exact .lift (ensures_overQuota ((adjustQuotaUsage_works delta).mono fun _ quotas adjusted =>
    ⟨quotas, rfl, adjusted⟩))

/-! ### Request by request -/

/-- The books after a request that is accepted balance under the condition, and after one that is
refused they balance anyway. -/
abbrev BalancesIf (config : OciConfig) (p : OciProg Response) (condition : Prop)
    (store : OciStore) : Prop :=
  Ends (steadyHandle config) p (fun _ s => Balanced config s ↔ condition)
    (fun _ s => Balanced config s) store

variable {p : OciProg Response}

theorem Balanced.keeps_of_callsOnly (balanced : Balanced config store)
    (only : p.run.CallsOnly (I := OciCalls) OciCall.Leaves) : BalancesIf config p True store := by
  refine (only.ensures (H := steadyHandle config) ?_ balanced).mono fun outcome s kept => ?_
  · intro call leaves uuid s kept
    exact kept.of_sameFiles (sameFiles_ociHandle leaves _ _)
  · cases outcome with
    | ok _ => exact iff_true_intro kept
    | error _ => exact kept

theorem require_next {condition : Prop} (balanced : Balanced config store)
    (passes : holds = true → BalancesIf config p condition store) :
    BalancesIf config (require holds refusal >>= fun _ => p) condition store := by
  refine .andThen (require_ends holds refusal) ?_ ?_
  · simp_all
  · rintro _ _ rfl
    exact balanced

section

variable (hasStore : config.quotaStore = true)
include hasStore

theorem release_ends (freed : ℕ) :
    Ends (steadyHandle config) (release config freed)
      (fun _ s => ∃ quotas, s = { store with quotas } ∧
        quotas.usage config.tenantId = store.quotas.usage config.tenantId - freed)
      (fun _ _ => False) store := by
  unfold release
  split_ifs with positive
  · refine (adjust_ends hasStore _).mono ?_ fun _ _ => id
    rintro _ _ ⟨quotas, rfl, usage⟩
    exact ⟨quotas, rfl, by omega⟩
  · exact .pure ⟨store.quotas, rfl, by omega⟩

theorem accountBlob_ends (valid : validateDigest digest)
    (stored : store.blobs.get digest = some data) :
    Ends (steadyHandle config) (accountBlob config digest)
      (fun _ s => ((data.length = 0 ∨ store.quotas.Grants config.tenantId data.length) ∧ ∃ quotas,
          s = { store with quotas } ∧
            quotas.usage config.tenantId = store.quotas.usage config.tenantId + data.length) ∨
        s = store ∧ ¬ (data.length = 0 ∨ store.quotas.Grants config.tenantId data.length))
      (fun _ _ => False) store := by
  refine .call fun uuid => ?_
  dsimp only [steadyHandle, ociHandle]
  rw [blobSize_of_get valid stored]
  refine .next (.lift (.mono (reserve_ends hasStore _) fun outcome s ends => ?_))
    fun _ _ ends => .pure ends
  cases outcome with
  | ok _ => exact .inl ends
  | error _ => exact .inr ends

variable (balanced : Balanced config store)
include balanced

theorem release_keeps {freed : ℕ} (less : storedBytes store' + freed = storedBytes store)
    (quotas : store'.quotas = store.quotas) (response : Response) :
    BalancesIf config (release config freed >>= fun _ => pure response) True store' := by
  refine .andThen (release_ends hasStore freed) ?_ fun _ _ never => never.elim
  rintro _ _ ⟨quotas', rfl, usage⟩
  refine .pure (iff_true_intro ?_)
  unfold Balanced at balanced ⊢
  unfold storedBytes at *
  grind

theorem deleteBlob_keeps (name digest : String) :
    BalancesIf config (deleteBlob config name digest) True store := by
  refine require_next balanced fun _ => require_next balanced fun valid => ?_
  refine .call fun uuid => .call fun uuid' => ?_
  dsimp only [steadyHandle, ociHandle]
  rw [deleteBlob_eq valid, toOption_blobSize valid]
  have erased := store.blobs.total_erase length digest
  refine release_keeps hasStore balanced ?_ ?_ _
  · unfold storedBytes
    dsimp only
    omega
  · rfl

theorem deleteManifest_keeps (name reference : String) :
    BalancesIf config (deleteManifest config name reference) True store := by
  refine require_next balanced fun validName => require_next balanced fun validRef => ?_
  have valid := isManifestPath_of validName validRef
  refine .call fun uuid => .call fun uuid' => ?_
  dsimp only [steadyHandle, ociHandle]
  rw [deleteManifest_eq valid, toOption_getManifest valid]
  have erased := store.manifests.total_erase length (name, reference)
  refine release_keeps hasStore balanced ?_ ?_ _
  · unfold storedBytes
    dsimp only
    omega
  · rfl

theorem putManifest_keeps (validDigests : ∀ data, validateDigest (config.digestOf data))
    (name reference : String) (body : Bytes) :
    BalancesIf config (putManifest config name reference body)
      (Charges config store (.putManifest name reference body)) store := by
  refine require_next balanced fun validName => require_next balanced fun validRef => ?_
  refine .andThen (reserve_ends hasStore _) ?_ ?_
  · rintro _ _ ⟨-, quotas, rfl, usage⟩
    refine .call fun uuid => ?_
    dsimp only [steadyHandle, ociHandle]
    rw [storeManifest_eq (isManifestPath_of validName validRef)]
    refine .call fun uuid => ?_
    dsimp only [steadyHandle, ociHandle]
    rw [storeManifest_eq (isManifestPath_of validName
      (validateReference_of_digest (validDigests body)))]
    refine .pure ?_
    have first := store.manifests.total_set length (name, reference) body
    have second := (store.manifests.set (name, reference) body).total_set length
      (name, config.digestOf body) body
    rw [Assoc.sizeAt_set] at second
    unfold Balanced storedBytes at balanced ⊢
    unfold Charges manifestBytes
    by_cases same : reference = config.digestOf body
    · subst same
      rw [if_pos rfl] at second
      simp only [ne_eq, not_true_eq_false, or_false, ← length_eq_zero_iff]
      omega
    · grind
  · rintro _ _ ⟨rfl, -⟩
    exact balanced

theorem accountNewBlob_keeps (valid : validateDigest digest) (data : Bytes)
    (uploads : Assoc String Bytes) (response : Response) : BalancesIf config
      (accountNewBlob config digest (.ok (store.blobs.get digest).isSome) >>=
        fun _ => pure response)
      (if (store.blobs.get digest).isSome then store.blobs.sizeAt length digest = data.length
        else data = [] ∨ store.quotas.Grants config.tenantId data.length)
      { store with
        blobs := store.blobs.set digest data
        uploads := uploads } := by
  have total := store.blobs.total_set length digest data
  cases stored : store.blobs.get digest with
  | some old =>
    refine .pure ?_
    rw [if_pos Option.isSome_some]
    unfold Balanced storedBytes at balanced ⊢
    dsimp only at total ⊢
    omega
  | none =>
    have isNew : store.blobs.sizeAt length digest = 0 := by
      unfold Assoc.sizeAt
      rw [stored]
      rfl
    refine .andThen (accountBlob_ends hasStore valid (Assoc.get_set_self ..)) ?_
      fun _ _ never => never.elim
    rintro _ s accounted
    refine .pure ?_
    unfold Balanced storedBytes at balanced ⊢
    rcases accounted with ⟨granted, quotas, rfl, usage⟩ | ⟨rfl, refused⟩
    · grind
    · simp_all

theorem completeUpload_keeps (name id digest : String) (body : Bytes) :
    BalancesIf config (completeUpload config name id digest body)
      (Charges config store (.completeUpload name id digest body)) store := by
  refine require_next balanced fun _ => require_next balanced fun valid => ?_
  refine .andThen (checkBody_ends body) ?_ ?_
  · rintro _ _ rfl
    refine .andThen (append_ends id body _) ?_ fun _ _ same => balanced.of_sameFiles same
    rintro _ appended ⟨same, isUploaded⟩
    refine .call fun uuid => .call fun uuid' => ?_
    dsimp only [steadyHandle, ociHandle]
    rw [hasBlob_eq valid]
    rcases appended.completeUpload_cases config id digest with
      ⟨error, uploads, refused⟩ | ⟨data, found, isDigest, completed⟩
    · rw [refused]
      cases error <;> exact .throw (balanced.of_sameFiles same)
    · rw [completed]
      obtain rfl := isUploaded data found
      unfold Charges
      rw [← same.1, ← same.2.2]
      exact accountNewBlob_keeps hasStore (balanced.of_sameFiles same) valid _ _ _
  · rintro _ _ rfl
    exact balanced

/-- **After a request the books balance exactly if it settles.** -/
theorem balanced_serve (validDigests : ∀ data, validateDigest (config.digestOf data))
    (turn : Turn) : Balanced config (serve config turn store).2 ↔ Settles config store turn := by
  have keeps : BalancesIf config (handle config turn.1) (Charges config store turn.1) store := by
    cases turn.1 with
    | startUpload name mount fromRepo body =>
      exact balanced.keeps_of_callsOnly (startUpload_callsOnly (fun _ => id) _ _ _ _ _)
    | patchUpload name id body =>
      exact balanced.keeps_of_callsOnly (patchUpload_callsOnly (fun _ leaves => leaves) _ _ _ _)
    | completeUpload name id digest body =>
      exact completeUpload_keeps hasStore balanced name id digest body
    | putManifest name reference body =>
      exact putManifest_keeps hasStore balanced validDigests name reference body
    | deleteManifest name reference => exact deleteManifest_keeps hasStore balanced name reference
    | deleteBlob name digest => exact deleteBlob_keeps hasStore balanced name digest
  have ends := Prog.Ensures.run keeps turn.2
  unfold Settles serve
  cases answer : ((handle config turn.1).run.run (steadyHandle config) turn.2 store).1 with
  | ok response =>
    rw [answer] at ends
    exact ends.trans ⟨fun charges _ => charges, fun charges => charges rfl⟩
  | error refusal =>
    rw [answer] at ends
    exact iff_of_true ends fun isOk => by cases isOk

end

/-- **The recorded usage is what is stored after every request exactly when every request settles.**
-/
theorem balanced_iff (hasStore : config.quotaStore = true)
    (validDigests : ∀ data, validateDigest (config.digestOf data))
    (balanced : Balanced config store)
    (turns : List Turn) : (∀ n, Balanced config (serveAll config (turns.take n) store)) ↔
      AtEach (fun earlier turn => Settles config (serveAll config earlier store) turn) turns := by
  have next : ∀ n, (inRange : n < turns.length) →
      serveAll config (turns.take (n + 1)) store =
        (serve config (turns.get ⟨n, inRange⟩) (serveAll config (turns.take n) store)).2 := by
    intro n inRange
    unfold serveAll
    rw [take_succ_eq_append_getElem inRange, foldl_append]
    rfl
  constructor
  · intro always n inRange
    refine (balanced_serve hasStore (always n) validDigests _).mp ?_
    rw [← next n inRange]
    exact always (n + 1)
  · intro settles n
    induction n with
    | zero => exact balanced
    | succ n ih =>
      by_cases inRange : n < turns.length
      · rw [next n inRange]
        exact (balanced_serve hasStore ih validDigests _).mpr (settles n inRange)
      · rwa [take_of_length_le (by omega), ← take_of_length_le (not_lt.mp inRange)]

end

/-! ### Two histories -/

/-- A blob is uploaded and a manifest is put under a tag; then both are deleted. -/
def pushAndDelete : List Turn :=
  [.startUpload "app" none none [], .completeUpload "app" sampleId (sampleDigest [97]) [97],
    .putManifest "app" "latest" [98], .deleteBlob "app" (sampleDigest [97]),
    .deleteManifest "app" "latest"].map fun request => (request, fun _ => sampleId)

theorem balanced_pushAndDelete :
    Balanced sampleConfig (serveAll sampleConfig (pushAndDelete.take 5) {}) :=
  have start : Balanced sampleConfig {} := by decide
  (balanced_iff (show sampleConfig.quotaStore = true from rfl) validateDigest_sampleDigest start
    pushAndDelete).mpr (by decide +kernel) 5

/-- **A manifest is put twice under one tag**: four bytes are recorded, two are stored. -/
theorem not_balanced_putTwice : ¬ Balanced sampleConfig (serveAll sampleConfig
      ([.putManifest "app" "latest" [98], .putManifest "app" "latest" [98]].map
        fun request => (request, fun _ => sampleId)) {}) := by
  decide +kernel

end Muli.Oci
