import AdapterFabric.Fabric.Fence
import AdapterFabric.Lib.Run

/-!
# AdapterFabric.Fabric.Step

Runs of Fabric operations, and what one operation can do.

* `run`: any sequence of operations, failed ones included.
* `Op.quiet_apply`: what operations on compositions, residencies and capacity leave alone.
* `record_cases`: where an authority record found after an operation comes from.
* `active_step`: an authority record that is active after an operation was bound by it, or was
  active before and is spared with the slot and the attempt that belong to it.
-/

namespace AdapterFabric

open Std

namespace Fabric

/-- Everything that changes a Fabric. -/
inductive Op where
  | registerAdapter (d : AdapterDescriptor)
  | publishComposition (ordered : List AdapterId) (policy : Bytes) (rng : Rng)
  | registerWorker (rec : WorkerRecord)
  | createInstance (adapter : AdapterId) (worker : WorkerId) (boot : WorkerBootId)
      (device : DeviceId) (bytes : UInt64) (rng : Rng)
  | bindAuthority (id : AdapterId) (fence : AuthorityFence)
  | invalidate (id : AdapterId) (trigger : InvalidationTrigger) (reason : Bytes)
  | evict (inst : AdapterInstanceId)
  | pin (inst : AdapterInstanceId)
  | unpin (inst : AdapterInstanceId)
  | advanceEpoch
  | onWorkerDown (id : WorkerId)
  | onWorkerRestart (id : WorkerId) (boot : WorkerBootId)
  | recover (s : FabricSnapshot)
  | markReady (inst : AdapterInstanceId) (bytes : UInt64)
  | setLifecycle (id : AdapterId) (s : LifecycleState)
  | reserveCapacity (loc : ResidencyLocation) (bytes : UInt64) (owner : Bytes)
  | releaseCapacity (loc : ResidencyLocation) (bytes : UInt64) (owner : Bytes)

namespace Op

/-- The state an operation leaves behind, whether it returns or throws. -/
def apply : Op → Fabric → Fabric
  | registerAdapter d, f => (f.registerAdapter d).2
  | publishComposition ordered policy rng, f => (f.publishComposition ordered policy rng).2.1
  | registerWorker rec, f => f.registerWorker rec
  | createInstance adapter worker boot device bytes rng, f =>
    (f.createInstance adapter worker boot device bytes rng).2.1
  | bindAuthority id fence, f => (f.bindAuthority id fence).2
  | invalidate id trigger reason, f => (f.invalidate id trigger reason).2
  | evict inst, f => (f.evict inst).2
  | pin inst, f => (f.pin inst).2
  | unpin inst, f => (f.unpin inst).2
  | advanceEpoch, f => f.advanceEpoch
  | onWorkerDown id, f => f.onWorkerDown id
  | onWorkerRestart id boot, f => f.onWorkerRestart id boot
  | recover s, f => f.recover s
  | markReady inst bytes, f => f.markReady inst bytes
  | setLifecycle id s, f => f.setLifecycle id s
  | reserveCapacity loc bytes owner, f => (f.reserveCapacity loc bytes owner).2
  | releaseCapacity loc bytes owner, f => (f.releaseCapacity loc bytes owner).2

/-- Every caller binds a fence under the adapter it names. -/
def Keyed : Op → Prop
  | bindAuthority id fence => id = fence.adapter
  | _ => True

def isRecover : Op → Bool
  | recover _ => true
  | _ => false

/-- The operation is about compositions, residencies or capacity only. -/
def isQuiet : Op → Bool
  | publishComposition _ _ _ => true
  | evict _ => true
  | pin _ => true
  | unpin _ => true
  | markReady _ _ => true
  | reserveCapacity _ _ _ => true
  | releaseCapacity _ _ _ => true
  | _ => false

end Op

def run (ops : List Op) (f : Fabric) : Fabric := Run.exec Op.apply ops f

theorem run_append (ops ops' : List Op) (f : Fabric) : run (ops ++ ops') f = run ops' (run ops f) :=
  Run.exec_append Op.apply ops ops' f

theorem Fresh.no_record {f : Fabric} (h : Fresh f) (k : Bytes) : f.authority[k]? = none := by
  cases h <;> exact ExtTreeMap.getElem?_empty

/-! ## What the operations do -/

/-- The checks of `register_adapter`. -/
def Registrable (d : AdapterDescriptor) : Prop :=
  ¬ d.id.isNil = true ∧ ¬ d.baseModel.isNil = true ∧ ¬ d.baseModelRevision.isNil = true ∧
    ¬ d.artifactDigest.isEmpty = true ∧ ¬ d.memoryBytes = 0

theorem registerAdapter_cases (f : Fabric) (d : AdapterDescriptor) :
    (¬ Registrable d ∧ ∃ e, f.registerAdapter d = (.error e, f)) ∨
    (Registrable d ∧ f.registerAdapter d = (.ok { d with generation := f.nextAdapterGen }, { f with
      nextAdapterGen := f.nextAdapterGen.next
      adapters := f.adapters.insert d.id.str { d with generation := f.nextAdapterGen } })) := by
  unfold registerAdapter
  by_cases h1 : d.id.isNil = true
  · rw [if_pos h1]; exact .inl ⟨fun h => h.1 h1, _, rfl⟩
  rw [if_neg h1]
  by_cases h2 : d.baseModel.isNil = true
  · rw [if_pos h2]; exact .inl ⟨fun h => h.2.1 h2, _, rfl⟩
  rw [if_neg h2]
  by_cases h3 : d.baseModelRevision.isNil = true
  · rw [if_pos h3]; exact .inl ⟨fun h => h.2.2.1 h3, _, rfl⟩
  rw [if_neg h3]
  by_cases h4 : d.artifactDigest.isEmpty = true
  · rw [if_pos h4]; exact .inl ⟨fun h => h.2.2.2.1 h4, _, rfl⟩
  rw [if_neg h4]
  by_cases h5 : d.memoryBytes = 0
  · rw [if_pos h5]; exact .inl ⟨fun h => h.2.2.2.2 h5, _, rfl⟩
  rw [if_neg h5]
  exact .inr ⟨⟨h1, h2, h3, h4, h5⟩, rfl⟩

theorem registerAdapter_frame (f : Fabric) (d : AdapterDescriptor) :
    ∃ nextAdapterGen adapters,
      (f.registerAdapter d).2 = { f with nextAdapterGen, adapters } := by
  rcases registerAdapter_cases f d with ⟨_, e, he⟩ | ⟨_, he⟩
  · exact ⟨_, _, congrArg Prod.snd he⟩
  · exact ⟨_, _, congrArg Prod.snd he⟩

theorem publishComposition_cases (f : Fabric) (ordered : List AdapterId) (policy : Bytes)
    (rng : Rng) :
    (f.publishComposition ordered policy rng).2.1 = f ∨
    ∃ c, (f.publishComposition ordered policy rng).2.1 = { f with
      compositions := f.compositions.insert c.id.str c
      nextCompositionGen := f.nextCompositionGen.next } := by
  unfold publishComposition
  cases ordered with
  | nil => exact .inl rfl
  | cons id ids =>
    dsimp only
    cases f.adapter id with
    | none => exact .inl rfl
    | some first =>
      dsimp only
      split
      · exact .inl rfl
      · split
        · exact .inl rfl
        · exact .inr ⟨_, rfl⟩

theorem publishComposition_frame (f : Fabric) (ordered : List AdapterId) (policy : Bytes)
    (rng : Rng) :
    ∃ compositions nextCompositionGen, (f.publishComposition ordered policy rng).2.1 =
      { f with compositions, nextCompositionGen } := by
  rcases publishComposition_cases f ordered policy rng with he | ⟨c, he⟩
  · exact ⟨_, _, he⟩
  · exact ⟨_, _, he⟩

theorem createInstance_cases (f : Fabric) (id : AdapterId) (worker : WorkerId) (boot : WorkerBootId)
    (device : DeviceId) (bytes : UInt64) (rng : Rng) :
    (f.createInstance id worker boot device bytes rng).2.1 = f ∨
    ∃ inst record ar, ar.active = false ∧ ar.fence.adapter = id ∧
      (f.createInstance id worker boot device bytes rng).2.1 = { f with
        residencies := f.residencies.insert inst record
        authority := f.authority.insert id.str ar } := by
  unfold createInstance
  cases f.adapter id with
  | none => exact .inl rfl
  | some d => exact .inr ⟨_, _, _, rfl, rfl, rfl⟩

theorem createInstance_frame (f : Fabric) (id : AdapterId) (worker : WorkerId) (boot : WorkerBootId)
    (device : DeviceId) (bytes : UInt64) (rng : Rng) :
    ∃ residencies authority, (f.createInstance id worker boot device bytes rng).2.1 =
      { f with residencies, authority } := by
  rcases createInstance_cases f id worker boot device bytes rng with
    he | ⟨inst, record, ar, _, _, he⟩
  · exact ⟨_, _, he⟩
  · exact ⟨_, _, he⟩

theorem bindAuthority_frame (f : Fabric) (id : AdapterId) (F : AuthorityFence) :
    ∃ authority currentAttempt activeFence,
      (f.bindAuthority id F).2 = { f with authority, currentAttempt, activeFence } := by
  rcases bindAuthority_cases f id F with he | ⟨ar, _, _, _, he⟩
  · exact ⟨_, _, _, he⟩
  · exact ⟨_, _, _, congrArg Prod.snd he⟩

/-- The id that `create_instance` draws. -/
def drawn (rng : Rng) : AdapterInstanceId := (Id.generate rng).1

/-- The residency that `create_instance` makes. -/
def freshResidency (f : Fabric) (d : AdapterDescriptor) (adapterId : AdapterId) (worker : WorkerId)
    (boot : WorkerBootId) (device : DeviceId) (bytes : UInt64) (inst : AdapterInstanceId) :
    ResidencyRecord where
  instanceId := inst
  adapterId
  adapterGeneration := d.generation
  residencyGeneration := ⟨1⟩
  location := .deviceMemory
  bytes
  worker
  boot
  epoch := f.epoch
  device

/-- The authority record that `create_instance` makes. -/
def freshRecord (f : Fabric) (d : AdapterDescriptor) (adapterId : AdapterId) (worker : WorkerId)
    (boot : WorkerBootId) (device : DeviceId) (inst : AdapterInstanceId) :
    AdapterAuthorityRecord where
  adapter := adapterId
  instanceId := inst
  lifecycle := .loading
  residencyGeneration := ⟨1⟩
  fence := {
    adapter := adapterId
    epoch := f.epoch
    adapterGeneration := d.generation
    baseModelRevision := d.baseModelRevision
    worker
    boot
    device
    residencyGeneration := ⟨1⟩
    compositionGeneration := ⟨1⟩
    artifactGeneration := ⟨1⟩ }

section CreateInstance

variable {f : Fabric} {id : AdapterId} {d : AdapterDescriptor} (worker : WorkerId)
  (boot : WorkerBootId) (device : DeviceId) (bytes : UInt64) (rng : Rng)

theorem createInstance_some (h : f.adapter id = some d) :
    f.createInstance id worker boot device bytes rng = (.ok (drawn rng), { f with
      residencies := f.residencies.insert (drawn rng).str
        (f.freshResidency d id worker boot device bytes (drawn rng))
      authority := f.authority.insert id.str
        (f.freshRecord d id worker boot device (drawn rng)) },
      (Uuid.generate rng).2) := by
  unfold createInstance
  rw [h]
  rfl

theorem createInstance_none (h : f.adapter id = none) :
    f.createInstance id worker boot device bytes rng =
      (.error ⟨.notFound, ascii "unknown adapter"⟩, f, rng) := by
  unfold createInstance
  rw [h]

end CreateInstance

theorem evict_cases (f : Fabric) (inst : AdapterInstanceId) :
    ∃ residencies, (f.evict inst).2 = { f with residencies } := by
  unfold evict
  cases f.residency inst with
  | none => exact ⟨f.residencies, rfl⟩
  | some rec =>
    dsimp only
    by_cases h1 : rec.activeRefs > 0
    · rw [if_pos h1]; exact ⟨f.residencies, rfl⟩
    rw [if_neg h1]
    by_cases h2 : rec.pinCount > 0 ∨ rec.protected_ = true
    · rw [if_pos h2]; exact ⟨f.residencies, rfl⟩
    rw [if_neg h2]
    exact ⟨_, rfl⟩

theorem pin_cases (f : Fabric) (inst : AdapterInstanceId) :
    ∃ residencies, (f.pin inst).2 = { f with residencies } := by
  unfold pin
  cases f.residency inst with
  | none => exact ⟨f.residencies, rfl⟩
  | some rec => exact ⟨_, rfl⟩

theorem unpin_cases (f : Fabric) (inst : AdapterInstanceId) :
    ∃ residencies, (f.unpin inst).2 = { f with residencies } := by
  unfold unpin
  cases f.residency inst with
  | none => exact ⟨f.residencies, rfl⟩
  | some rec => exact ⟨_, rfl⟩

/-- `f'` has the adapters, the workers and all authority of `f`. -/
structure Quiet (f f' : Fabric) : Prop where
  epoch : f'.epoch = f.epoch
  nextAdapterGen : f'.nextAdapterGen = f.nextAdapterGen
  adapters : f'.adapters = f.adapters
  workers : f'.workers = f.workers
  authority : f'.authority = f.authority
  activeFence : f'.activeFence = f.activeFence
  currentAttempt : f'.currentAttempt = f.currentAttempt

theorem quiet_with (f : Fabric) (compositions) (nextCompositionGen) (residencies) (capacity) :
    Quiet f { f with compositions, nextCompositionGen, residencies, capacity } :=
  ⟨rfl, rfl, rfl, rfl, rfl, rfl, rfl⟩

theorem Op.quiet_apply {op : Op} (h : op.isQuiet = true) (f : Fabric) : Quiet f (op.apply f) := by
  cases op with
  | publishComposition ordered policy rng =>
    obtain ⟨_, _, he⟩ := publishComposition_frame f ordered policy rng
    simp only [Op.apply, he]
    exact quiet_with f _ _ _ _
  | evict inst =>
    obtain ⟨_, he⟩ := evict_cases f inst
    simp only [Op.apply, he]
    exact quiet_with f _ _ _ _
  | pin inst =>
    obtain ⟨_, he⟩ := pin_cases f inst
    simp only [Op.apply, he]
    exact quiet_with f _ _ _ _
  | unpin inst =>
    obtain ⟨_, he⟩ := unpin_cases f inst
    simp only [Op.apply, he]
    exact quiet_with f _ _ _ _
  | markReady inst bytes => exact quiet_with f _ _ _ _
  | reserveCapacity loc bytes owner => exact quiet_with f _ _ _ _
  | releaseCapacity loc bytes owner => exact quiet_with f _ _ _ _
  | _ => cases h

theorem compositions_frame {op : Op}
    (hpub : ∀ ordered policy rng, op ≠ .publishComposition ordered policy rng)
    (hrec : op.isRecover = false) (f : Fabric) :
    (op.apply f).compositions = f.compositions ∧
      (op.apply f).nextCompositionGen = f.nextCompositionGen := by
  cases op with
  | publishComposition ordered policy rng => exact absurd rfl (hpub ordered policy rng)
  | recover s => cases hrec
  | registerAdapter d =>
    obtain ⟨_, _, he⟩ := registerAdapter_frame f d
    simp only [Op.apply, he, and_self]
  | createInstance adapter worker boot device bytes rng =>
    obtain ⟨_, _, he⟩ := createInstance_frame f adapter worker boot device bytes rng
    simp only [Op.apply, he, and_self]
  | bindAuthority id fence =>
    obtain ⟨_, _, _, he⟩ := bindAuthority_frame f id fence
    simp only [Op.apply, he, and_self]
  | evict inst =>
    obtain ⟨_, he⟩ := evict_cases f inst
    simp only [Op.apply, he, and_self]
  | pin inst =>
    obtain ⟨_, he⟩ := pin_cases f inst
    simp only [Op.apply, he, and_self]
  | unpin inst =>
    obtain ⟨_, he⟩ := unpin_cases f inst
    simp only [Op.apply, he, and_self]
  | _ => exact ⟨rfl, rfl⟩

theorem workers_frame {op : Op} (hworker : ∀ rec, op ≠ .registerWorker rec)
    (hdown : ∀ id, op ≠ .onWorkerDown id) (hrec : op.isRecover = false) (f : Fabric) :
    (op.apply f).workers = f.workers := by
  by_cases hquiet : op.isQuiet = true
  · exact (Op.quiet_apply hquiet f).workers
  cases op with
  | registerWorker rec => exact absurd rfl (hworker rec)
  | onWorkerDown id => exact absurd rfl (hdown id)
  | recover s => cases hrec
  | registerAdapter d =>
    obtain ⟨_, _, he⟩ := registerAdapter_frame f d
    simp only [Op.apply, he]
  | createInstance adapter worker boot device bytes rng =>
    obtain ⟨_, _, he⟩ := createInstance_frame f adapter worker boot device bytes rng
    simp only [Op.apply, he]
  | bindAuthority id fence =>
    obtain ⟨_, _, _, he⟩ := bindAuthority_frame f id fence
    simp only [Op.apply, he]
  | invalidate id trigger reason => rfl
  | advanceEpoch => rfl
  | onWorkerRestart id boot => rfl
  | setLifecycle id s => rfl
  | _ => exact absurd rfl hquiet

/-- Does the operation call the accountant? -/
def Op.accounts : Op → Bool
  | reserveCapacity _ _ _ => true
  | releaseCapacity _ _ _ => true
  | _ => false

/-- Does it append to the invalidation log? -/
def Op.logs : Op → Bool
  | invalidate _ _ _ => true
  | _ => false

theorem books_frame (op : Op) (f : Fabric) :
    (op.accounts = false → (op.apply f).capacity = f.capacity) ∧
      (op.logs = false → (op.apply f).invalidationLog = f.invalidationLog) := by
  cases op with
  | registerAdapter d =>
    obtain ⟨_, _, he⟩ := registerAdapter_frame f d
    simp [Op.apply, he]
  | publishComposition ordered policy rng =>
    obtain ⟨_, _, he⟩ := publishComposition_frame f ordered policy rng
    simp [Op.apply, he]
  | createInstance adapter worker boot device bytes rng =>
    obtain ⟨_, _, he⟩ := createInstance_frame f adapter worker boot device bytes rng
    simp [Op.apply, he]
  | bindAuthority id fence =>
    obtain ⟨_, _, _, he⟩ := bindAuthority_frame f id fence
    simp [Op.apply, he]
  | evict inst =>
    obtain ⟨_, he⟩ := evict_cases f inst
    simp [Op.apply, he]
  | pin inst =>
    obtain ⟨_, he⟩ := pin_cases f inst
    simp [Op.apply, he]
  | unpin inst =>
    obtain ⟨_, he⟩ := unpin_cases f inst
    simp [Op.apply, he]
  | reserveCapacity loc bytes owner => exact ⟨nofun, fun _ => rfl⟩
  | releaseCapacity loc bytes owner => exact ⟨nofun, fun _ => rfl⟩
  | invalidate id trigger reason => exact ⟨fun _ => rfl, nofun⟩
  | _ => exact ⟨fun _ => rfl, fun _ => rfl⟩

/-! ## Revoking -/

theorem revokeWhere_authority (f : Fabric) (lost : AuthorityFence → Bool) (k : Bytes) :
    (f.revokeWhere lost).authority[k]? =
      f.authority[k]?.map fun ar => if lost ar.fence then revoked ar else ar :=
  ExtTreeMap.getElem?_map

theorem revokeWhere_attempt_lost {f : Fabric} {lost : AuthorityFence → Bool} {k : Bytes}
    {ar : AdapterAuthorityRecord} (h : f.authority[k]? = some ar) (hlost : lost ar.fence = true) :
    (f.revokeWhere lost).currentAttempt[k]? = none :=
  Table.get_eraseAll_of_mem (Table.mem_keysWhere.mpr ⟨ar, h, hlost⟩) _

theorem revokeWhere_attempt_kept {f : Fabric} {lost : AuthorityFence → Bool} {k : Bytes}
    (h : ∀ ar, f.authority[k]? = some ar → lost ar.fence = false) :
    (f.revokeWhere lost).currentAttempt[k]? = f.currentAttempt[k]? := by
  refine Table.get_eraseAll_of_not_mem (fun hmem => ?_) _
  obtain ⟨ar, har, hlost⟩ := Table.mem_keysWhere.mp hmem
  rw [h ar har] at hlost
  cases hlost

theorem revokeWhere_attempt_some {f : Fabric} {lost : AuthorityFence → Bool} {k : Bytes}
    {a : AttemptId} (h : (f.revokeWhere lost).currentAttempt[k]? = some a) :
    f.currentAttempt[k]? = some a := by
  by_cases hlost : ∃ ar, f.authority[k]? = some ar ∧ lost ar.fence = true
  · obtain ⟨ar, har, hlost⟩ := hlost
    rw [revokeWhere_attempt_lost har hlost] at h
    cases h
  · rwa [revokeWhere_attempt_kept] at h
    intro ar har
    by_contra hne
    exact hlost ⟨ar, har, by simpa using hne⟩

theorem revokeWhere_fences (f : Fabric) (lost : AuthorityFence → Bool) (id : AdapterId) :
    ((f.revokeWhere lost).authorityRecord id).map (·.fence) =
      (f.authorityRecord id).map (·.fence) := by
  unfold authorityRecord
  rw [revokeWhere_authority, Option.map_map]
  congr 1
  funext ar
  show AdapterAuthorityRecord.fence (if lost ar.fence then revoked ar else ar) = ar.fence
  split <;> rfl


theorem onWorkerDown_attempt_some {f : Fabric} {id : WorkerId} {k : Bytes} {a : AttemptId}
    (h : (f.onWorkerDown id).currentAttempt[k]? = some a) : f.currentAttempt[k]? = some a := by
  have h : (f.revokeWhere fun fence => fence.worker = id).currentAttempt[k]? = some a := h
  exact revokeWhere_attempt_some h

theorem onWorkerRestart_attempt_some {f : Fabric} {id : WorkerId} {boot : WorkerBootId} {k : Bytes}
    {a : AttemptId} (h : (f.onWorkerRestart id boot).currentAttempt[k]? = some a) :
    f.currentAttempt[k]? = some a := by
  have h : (f.revokeWhere fun fence => fence.worker = id ∧ fence.boot ≠ boot).currentAttempt[k]? =
    some a := h
  exact revokeWhere_attempt_some h

theorem onWorkerDown_fences (f : Fabric) (id : WorkerId) (id' : AdapterId) :
    ((f.onWorkerDown id).authorityRecord id').map (·.fence) =
      (f.authorityRecord id').map (·.fence) :=
  revokeWhere_fences f (fun fence => fence.worker = id) id'

theorem onWorkerRestart_fences (f : Fabric) (id : WorkerId) (boot : WorkerBootId)
    (id' : AdapterId) :
    ((f.onWorkerRestart id boot).authorityRecord id').map (·.fence) =
      (f.authorityRecord id').map (·.fence) :=
  revokeWhere_fences f (fun fence => fence.worker = id ∧ fence.boot ≠ boot) id'

theorem active_of_revokeWhere {f : Fabric} {lost : AuthorityFence → Bool} {k : Bytes}
    {ar : AdapterAuthorityRecord} (h : (f.revokeWhere lost).authority[k]? = some ar)
    (ha : ar.active = true) : f.authority[k]? = some ar ∧ lost ar.fence = false := by
  rw [revokeWhere_authority] at h
  obtain ⟨ar₀, h₀, har⟩ := Option.map_eq_some_iff.mp h
  by_cases hlost : lost ar₀.fence = true
  · rw [if_pos hlost] at har
    rw [← har] at ha
    cases ha
  · rw [if_neg hlost] at har
    subst har
    exact ⟨h₀, by simpa using hlost⟩

/-! ## Records across one operation -/

section Records

variable {f : Fabric} {op : Op} {k : Bytes} {ar' : AdapterAuthorityRecord}

theorem record_revokeWhere {lost : AuthorityFence → Bool}
    (h : (f.revokeWhere lost).authority[k]? = some ar') :
    ∃ ar, f.authority[k]? = some ar ∧ (ar' = ar ∨ ar' = revoked ar) := by
  rw [revokeWhere_authority] at h
  obtain ⟨ar, har, he⟩ := Option.map_eq_some_iff.mp h
  refine ⟨ar, har, ?_⟩
  by_cases hlost : lost ar.fence = true
  · rw [if_pos hlost] at he
    exact .inr he.symm
  · rw [if_neg hlost] at he
    exact .inl he.symm

/-- A record after an operation has been created or bound by it, or it was there before and is kept,
revoked, or written through. -/
theorem record_cases (h : (op.apply f).authority[k]? = some ar') :
    (∃ adapter worker boot device bytes rng d,
      op = .createInstance adapter worker boot device bytes rng ∧ adapter.str = k ∧
      f.adapter adapter = some d ∧
      ar' = f.freshRecord d adapter worker boot device (drawn rng)) ∨
    ∃ ar, f.authority[k]? = some ar ∧
      ((∃ id fence, op = .bindAuthority id fence ∧ id.str = k ∧
          (f.checkFence fence).authorized = true ∧
          (∀ held, f.activeFence = some held → held.adapter = id) ∧ ar' = granted ar fence) ∨
        ar' = ar ∨ ar' = revoked ar ∨
        ∃ id s, op = .setLifecycle id s ∧ id.str = k ∧ ar' = { ar with lifecycle := s }) := by
  by_cases hquiet : op.isQuiet = true
  · rw [(Op.quiet_apply hquiet f).authority] at h
    exact .inr ⟨ar', h, .inr (.inl rfl)⟩
  cases op with
  | registerAdapter d =>
    obtain ⟨_, _, he⟩ := registerAdapter_frame f d
    simp only [Op.apply, he] at h
    exact .inr ⟨ar', h, .inr (.inl rfl)⟩
  | registerWorker rec => exact .inr ⟨ar', h, .inr (.inl rfl)⟩
  | advanceEpoch => exact .inr ⟨ar', h, .inr (.inl rfl)⟩
  | recover s => exact .inr ⟨ar', h, .inr (.inl rfl)⟩
  | createInstance adapter worker boot device bytes rng =>
    cases hd : f.adapter adapter with
    | none =>
      simp only [Op.apply, createInstance_none worker boot device bytes rng hd] at h
      exact .inr ⟨ar', h, .inr (.inl rfl)⟩
    | some d =>
      simp only [Op.apply, createInstance_some worker boot device bytes rng hd] at h
      rcases Table.of_insert h with ⟨hk, rfl⟩ | h
      · exact .inl ⟨adapter, worker, boot, device, bytes, rng, d, rfl, hk, hd, rfl⟩
      · exact .inr ⟨ar', h, .inr (.inl rfl)⟩
  | bindAuthority id fence =>
    rcases bindAuthority_cases f id fence with he | ⟨ar, hauth, hfree, har, he⟩
    · simp only [Op.apply, he] at h
      exact .inr ⟨ar', h, .inr (.inl rfl)⟩
    · simp only [Op.apply, he] at h
      rcases Table.of_insert h with ⟨rfl, rfl⟩ | h
      · exact .inr ⟨ar, har, .inl ⟨id, fence, rfl, rfl, hauth, hfree, rfl⟩⟩
      · exact .inr ⟨ar', h, .inr (.inl rfl)⟩
  | invalidate id trigger reason =>
    have h : (f.authority.modify id.str revoked)[k]? = some ar' := h
    rcases Table.of_modify h with ⟨_, ar, har, rfl⟩ | h
    · exact .inr ⟨ar, har, .inr (.inr (.inl rfl))⟩
    · exact .inr ⟨ar', h, .inr (.inl rfl)⟩
  | onWorkerDown id =>
    have h : (f.revokeWhere fun fence => fence.worker = id).authority[k]? = some ar' := h
    obtain ⟨ar, har, hcases⟩ := record_revokeWhere h
    exact .inr ⟨ar, har, .inr (hcases.imp_right .inl)⟩
  | onWorkerRestart id boot =>
    have h : (f.revokeWhere fun fence => fence.worker = id ∧ fence.boot ≠ boot).authority[k]? =
      some ar' := h
    obtain ⟨ar, har, hcases⟩ := record_revokeWhere h
    exact .inr ⟨ar, har, .inr (hcases.imp_right .inl)⟩
  | setLifecycle id s =>
    have h : (f.authority.modify id.str fun ar => { ar with lifecycle := s })[k]? = some ar' := h
    rcases Table.of_modify h with ⟨hk, ar, har, rfl⟩ | h
    · exact .inr ⟨ar, har, .inr (.inr (.inr ⟨id, s, rfl, hk, rfl⟩))⟩
    · exact .inr ⟨ar', h, .inr (.inl rfl)⟩
  | _ => exact absurd rfl hquiet

/-- An attempt under `k` after an operation was there before, or an authorized fence brought it. -/
theorem attempt_cases {a : AttemptId} (h : (op.apply f).currentAttempt[k]? = some a) :
    f.currentAttempt[k]? = some a ∨
      ∃ id fence, op = .bindAuthority id fence ∧ (f.checkFence fence).authorized = true ∧
        a = fence.attempt := by
  by_cases hquiet : op.isQuiet = true
  · rw [(Op.quiet_apply hquiet f).currentAttempt] at h
    exact .inl h
  cases op with
  | registerAdapter d =>
    obtain ⟨_, _, he⟩ := registerAdapter_frame f d
    simp only [Op.apply, he] at h
    exact .inl h
  | createInstance adapter worker boot device bytes rng =>
    obtain ⟨_, _, he⟩ := createInstance_frame f adapter worker boot device bytes rng
    simp only [Op.apply, he] at h
    exact .inl h
  | bindAuthority id fence =>
    rcases bindAuthority_cases f id fence with he | ⟨ar, hauth, _, _, he⟩
    · simp only [Op.apply, he] at h
      exact .inl h
    · simp only [Op.apply, he] at h
      rcases Table.of_insert h with ⟨_, rfl⟩ | h
      · exact .inr ⟨id, fence, rfl, hauth, rfl⟩
      · exact .inl h
  | onWorkerDown id => exact .inl (onWorkerDown_attempt_some h)
  | onWorkerRestart id boot => exact .inl (onWorkerRestart_attempt_some h)
  | registerWorker rec => exact .inl h
  | invalidate id trigger reason => exact .inl h
  | advanceEpoch => exact .inl h
  | recover s => exact .inl h
  | setLifecycle id s => exact .inl h
  | _ => exact absurd rfl hquiet

end Records

/-! ## Active records across one operation -/

/-- The record under `k` was active already, and its slot and attempt are left to it. -/
structure Spared (f f' : Fabric) (k : Bytes) (ar : AdapterAuthorityRecord) : Prop where
  before : ∃ ar₀, f.authority[k]? = some ar₀ ∧ ar₀.active = true ∧
    ar₀.hasAuthority = ar.hasAuthority ∧ ar₀.fence = ar.fence
  slot : k = ar.fence.adapter.str → f.activeFence = some ar.fence → f'.activeFence = some ar.fence
  attempt : f'.currentAttempt[k]? = f.currentAttempt[k]?

/-- The record under `k` has just been granted a fence that the fabric authorizes. -/
structure Granted (f f' : Fabric) (k : Bytes) (ar : AdapterAuthorityRecord) : Prop where
  key : k = ar.fence.adapter.str
  authorized : (f.checkFence ar.fence).authorized = true
  hasAuthority : ar.hasAuthority = true
  slot : f'.activeFence = some ar.fence
  attempt : f'.currentAttempt[k]? = some ar.fence.attempt
  epoch : f'.epoch = f.epoch
  adapters : f'.adapters = f.adapters
  workers : f'.workers = f.workers

section Active

variable {f : Fabric} {k : Bytes} {ar : AdapterAuthorityRecord}

theorem spared_of_frame {f' : Fabric} (hauthority : f'.authority = f.authority)
    (hslot : f'.activeFence = f.activeFence) (hattempt : f'.currentAttempt = f.currentAttempt)
    (h : f'.authority[k]? = some ar) (ha : ar.active = true) : Spared f f' k ar where
  before := ⟨ar, by rwa [← hauthority], ha, rfl, rfl⟩
  slot _ hs := by rw [hslot, hs]
  attempt := by rw [hattempt]

theorem spared_revokeWhere {lost : AuthorityFence → Bool}
    (h : (f.revokeWhere lost).authority[k]? = some ar) (ha : ar.active = true) :
    Spared f (f.revokeWhere lost) k ar := by
  obtain ⟨h₀, hlost⟩ := active_of_revokeWhere h ha
  refine ⟨⟨ar, h₀, ha, rfl, rfl⟩, ?_, ?_⟩
  · intro _ hs
    show f.activeFence.filter (fun held => !lost held) = some ar.fence
    simp [hs, hlost]
  · refine revokeWhere_attempt_kept fun ar' h' => ?_
    obtain rfl : ar = ar' := Option.some.inj (h₀.symm.trans h')
    exact hlost

theorem createInstance_active {id : AdapterId} {worker : WorkerId} {boot : WorkerBootId}
    {device : DeviceId} {bytes : UInt64} {rng : Rng}
    (h : (f.createInstance id worker boot device bytes rng).2.1.authority[k]? = some ar)
    (ha : ar.active = true) :
    Spared f (f.createInstance id worker boot device bytes rng).2.1 k ar := by
  rcases createInstance_cases f id worker boot device bytes rng with
    he | ⟨inst, record, ar', hina, _, he⟩
  · rw [he] at h ⊢
    exact spared_of_frame rfl rfl rfl h ha
  · rw [he] at h ⊢
    rcases Table.of_insert h with ⟨_, rfl⟩ | h
    · -- the fresh record is not active
      rw [hina] at ha
      cases ha
    · exact ⟨⟨ar, h, ha, rfl, rfl⟩, fun _ hs => hs, rfl⟩

theorem bindAuthority_active {F : AuthorityFence}
    (h : (f.bindAuthority F.adapter F).2.authority[k]? = some ar) (ha : ar.active = true) :
    Granted f (f.bindAuthority F.adapter F).2 k ar ∨
      Spared f (f.bindAuthority F.adapter F).2 k ar := by
  rcases bindAuthority_cases f F.adapter F with he | ⟨ar', hauth, hfree, _, he⟩
  · rw [he] at h ⊢
    exact .inr (spared_of_frame rfl rfl rfl h ha)
  · rw [he] at h ⊢
    rw [Table.get_insert] at h
    by_cases hk : F.adapter.str = k
    · rw [if_pos hk] at h
      cases h
      exact .inl ⟨hk.symm, hauth, rfl, rfl, by rw [Table.get_insert, if_pos hk]; rfl, rfl, rfl, rfl⟩
    · rw [if_neg hk] at h
      refine .inr ⟨⟨ar, h, ha, rfl, rfl⟩, ?_, by rw [Table.get_insert, if_neg hk]⟩
      -- the slot cannot hold the fence of another adapter, or the bind would have been refused
      intro hkey hs
      exact absurd (by rw [hkey, hfree ar.fence hs]) hk

theorem invalidate_active {id : AdapterId} {trigger : InvalidationTrigger} {reason : Bytes}
    (h : (f.invalidate id trigger reason).2.authority[k]? = some ar) (ha : ar.active = true) :
    Spared f (f.invalidate id trigger reason).2 k ar := by
  have h' : (f.authority.modify id.str revoked)[k]? = some ar := h
  rw [Table.get_modify] at h'
  by_cases hk : id.str = k
  · rw [if_pos hk] at h'
    obtain ⟨ar₀, _, har⟩ := Option.map_eq_some_iff.mp h'
    rw [← har] at ha
    cases ha
  · rw [if_neg hk] at h'
    refine ⟨⟨ar, h', ha, rfl, rfl⟩, ?_, rfl⟩
    intro hkey hs
    have hne : ar.fence.adapter ≠ id := fun e => hk (by rw [hkey, e])
    show f.activeFence.filter (·.adapter ≠ id) = some ar.fence
    simp [hs, hne]

theorem setLifecycle_active {id : AdapterId} {s : LifecycleState}
    (h : (f.setLifecycle id s).authority[k]? = some ar) (ha : ar.active = true) :
    Spared f (f.setLifecycle id s) k ar := by
  have h' : (f.authority.modify id.str fun ar => { ar with lifecycle := s })[k]? = some ar := h
  rcases Table.of_modify h' with ⟨_, ar₀, h₀, rfl⟩ | h'
  · exact ⟨⟨ar₀, h₀, ha, rfl, rfl⟩, fun _ hs => hs, rfl⟩
  · exact ⟨⟨ar, h', ha, rfl, rfl⟩, fun _ hs => hs, rfl⟩

/-- What an operation can do to active records: grant one, or spare it. -/
theorem active_step {op : Op} (hop : op.Keyed) (h : (op.apply f).authority[k]? = some ar)
    (ha : ar.active = true) : Granted f (op.apply f) k ar ∨ Spared f (op.apply f) k ar := by
  by_cases hquiet : op.isQuiet = true
  · have hq := Op.quiet_apply hquiet f
    exact .inr (spared_of_frame hq.authority hq.activeFence hq.currentAttempt h ha)
  cases op with
  | registerAdapter d =>
    obtain ⟨_, _, he⟩ := registerAdapter_frame f d
    refine .inr (spared_of_frame ?_ ?_ ?_ h ha) <;> simp only [Op.apply, he]
  | registerWorker rec => exact .inr (spared_of_frame rfl rfl rfl h ha)
  | createInstance adapter worker boot device bytes rng => exact .inr (createInstance_active h ha)
  | bindAuthority id fence =>
    obtain rfl : id = fence.adapter := hop
    exact bindAuthority_active h ha
  | invalidate id trigger reason => exact .inr (invalidate_active h ha)
  | advanceEpoch => exact .inr (spared_of_frame rfl rfl rfl h ha)
  | onWorkerDown id =>
    have h' : (f.revokeWhere fun fence => fence.worker = id).authority[k]? = some ar := h
    obtain ⟨before, slot, attempt⟩ := spared_revokeWhere h' ha
    exact .inr ⟨before, slot, attempt⟩
  | onWorkerRestart id boot =>
    have h' : (f.revokeWhere fun fence => fence.worker = id ∧ fence.boot ≠ boot).authority[k]? =
      some ar := h
    obtain ⟨before, slot, attempt⟩ := spared_revokeWhere h' ha
    exact .inr ⟨before, slot, attempt⟩
  | recover s => exact .inr (spared_of_frame rfl rfl rfl h ha)
  | setLifecycle id s => exact .inr (setLifecycle_active h ha)
  | _ => exact absurd rfl hquiet

end Active

end Fabric

end AdapterFabric
