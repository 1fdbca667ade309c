import AdapterFabric.Capacity
import AdapterFabric.Compatibility
import AdapterFabric.Lib.Table
import AdapterFabric.Protocol

/-!
# AdapterFabric.Fabric.State

The Fabric and its operations (`fabric.hpp`, `fabric.cpp`).

Every map of the source is keyed by canonical id text. An operation that may throw returns its
result next to the state it leaves behind; one that draws a fresh id also takes and returns the
generator.
-/

namespace AdapterFabric

open Std

/-- `std::map<std::string, _>`. -/
abbrev StrMap (α : Type) := ExtTreeMap Bytes α compare

/-- A published activation fence together with the durable record it authorizes. -/
structure AdapterAuthorityRecord where
  adapter : AdapterId := .nil
  instanceId : AdapterInstanceId := .nil
  lifecycle : LifecycleState := .declared
  residencyGeneration : ResidencyGeneration := .none
  fence : AuthorityFence := {}
  hasAuthority : Bool := false
  active : Bool := false
deriving DecidableEq

structure Fabric where
  epoch : CoordinatorEpoch := .none
  nextAdapterGen : AdapterGeneration := ⟨1⟩
  nextCompositionGen : CompositionGeneration := ⟨1⟩
  adapters : StrMap AdapterDescriptor := ∅
  compositions : StrMap Composition := ∅
  workers : StrMap WorkerRecord := ∅
  authority : StrMap AdapterAuthorityRecord := ∅
  residencies : StrMap ResidencyRecord := ∅
  invalidationLog : List InvalidationRecord := []
  capacity : CapacityAccountant := {}
  activeFence : Option AuthorityFence := none
  currentAttempt : StrMap AttemptId := ∅

namespace Fabric

/-! ## Construction -/

/-- The default constructor: a terabyte wherever there is no limit. -/
def default : Fabric where
  capacity := ResidencyLocation.all.foldl
    (fun c loc => if c.limit loc = 0 then c.setLimit loc 0x10000000000 else c) {}

/-- The constructor from limits. -/
def ofLimits (limits : ExtTreeMap ResidencyLocation UInt64 ResidencyLocation.cmp) : Fabric where
  capacity := .ofLimits limits

/-- A fabric fresh from either constructor. -/
inductive Fresh : Fabric → Prop where
  | default : Fresh .default
  | ofLimits (limits) : Fresh (.ofLimits limits)

/-! ## Lookups -/

def adapter (f : Fabric) (id : AdapterId) : Option AdapterDescriptor := f.adapters[id.str]?

def worker (f : Fabric) (id : WorkerId) : Option WorkerRecord := f.workers[id.str]?

def authorityRecord (f : Fabric) (adapter : AdapterId) : Option AdapterAuthorityRecord :=
  f.authority[adapter.str]?

def residency (f : Fabric) (inst : AdapterInstanceId) : Option ResidencyRecord :=
  f.residencies[inst.str]?

/-! ## Registry -/

def advanceEpoch (f : Fabric) : Fabric := { f with epoch := f.epoch.next }

def registerAdapter (f : Fabric) (d : AdapterDescriptor) :
    Except Error AdapterDescriptor × Fabric :=
  if d.id.isNil then (.error ⟨.invalidIdentity, ascii "adapter id is nil"⟩, f)
  else if d.baseModel.isNil then (.error ⟨.invalidIdentity, ascii "base model id is nil"⟩, f)
  else if d.baseModelRevision.isNil then
    (.error ⟨.invalidIdentity, ascii "base model revision id is nil"⟩, f)
  else if d.artifactDigest.isEmpty then
    (.error ⟨.invalidArgument, ascii "adapter has no artifact digest"⟩, f)
  else if d.memoryBytes = 0 then
    (.error ⟨.invalidArgument, ascii "adapter declares zero memory footprint"⟩, f)
  else
    let d := { d with generation := f.nextAdapterGen }
    (.ok d, { f with
      nextAdapterGen := f.nextAdapterGen.next
      adapters := f.adapters.insert d.id.str d })

def validate (f : Fabric) (id : AdapterId) (target : CompatibilityTarget) :
    Except Error CompatibilityReport :=
  match f.adapter id with
  | none => .error ⟨.notFound, ascii "unknown adapter"⟩
  | some d => .ok (evaluateCompatibility d target)

/-- The loop of `publish_composition` over the listed adapters. -/
def addAll (f : Fabric) : List AdapterId → CompositionBuilder → Except Error CompositionBuilder
  | [], b => .ok b
  | id :: ids, b =>
    match f.adapter id with
    | none => .error ⟨.notFound, ascii "unknown adapter in composition"⟩
    | some d => do
      let b ← b.add d
      addAll f ids b

def publishComposition (f : Fabric) (ordered : List AdapterId) (policy : Bytes) (rng : Rng) :
    Except Error Composition × Fabric × Rng :=
  match ordered with
  | [] => (.error ⟨.invalidComposition, ascii "empty composition"⟩, f, rng)
  | id :: _ =>
    match f.adapter id with
    | none => (.error ⟨.notFound, ascii "unknown adapter in composition"⟩, f, rng)
    | some first =>
      let builder : CompositionBuilder :=
        { base := first.baseModel, rev := first.baseModelRevision, policy
          gen := f.nextCompositionGen }
      match f.addAll ordered builder with
      | .error e => (.error e, f, rng)
      | .ok b =>
        match b.build rng with
        | (.error e, rng) => (.error e, f, rng)
        | (.ok c, rng) =>
          (.ok c, { f with
            compositions := f.compositions.insert c.id.str c
            nextCompositionGen := f.nextCompositionGen.next }, rng)

def registerWorker (f : Fabric) (rec : WorkerRecord) : Fabric :=
  { f with workers := f.workers.insert rec.id.str rec }

/-! ## Residency and authority -/

def createInstance (f : Fabric) (adapterId : AdapterId) (worker : WorkerId) (boot : WorkerBootId)
    (device : DeviceId) (bytes : UInt64) (rng : Rng) :
    Except Error AdapterInstanceId × Fabric × Rng :=
  match f.adapter adapterId with
  | none => (.error ⟨.notFound, ascii "unknown adapter"⟩, f, rng)
  | some d =>
    let (inst, rng) := Id.generate rng
    let record : ResidencyRecord := {
      instanceId := inst
      adapterId
      adapterGeneration := d.generation
      residencyGeneration := ⟨1⟩
      location := .deviceMemory
      bytes
      worker
      boot
      epoch := f.epoch
      device }
    let ar : AdapterAuthorityRecord := {
      adapter := adapterId
      instanceId := inst
      lifecycle := .loading
      residencyGeneration := ⟨1⟩
      fence := {
        adapter := adapterId
        epoch := f.epoch
        adapterGeneration := d.generation
        baseModelRevision := d.baseModelRevision
        worker
        boot
        device
        residencyGeneration := ⟨1⟩
        compositionGeneration := ⟨1⟩
        artifactGeneration := ⟨1⟩ } }
    (.ok inst, { f with
      residencies := f.residencies.insert inst.str record
      authority := f.authority.insert adapterId.str ar }, rng)

def checkFence (f : Fabric) (fence : AuthorityFence) : AuthorityCheck :=
  match f.adapter fence.adapter with
  | none => ⟨.unknown, ascii "unknown or nil adapter"⟩
  | some d =>
    if fence.adapter.isNil then ⟨.unknown, ascii "unknown or nil adapter"⟩
    else if fence.epoch ≠ f.epoch then ⟨.staleEpoch, ascii "coordinator epoch mismatch"⟩
    else if fence.adapterGeneration ≠ d.generation then
      ⟨.staleAdapterGeneration, ascii "adapter generation mismatch"⟩
    else if fence.baseModelRevision ≠ d.baseModelRevision then
      ⟨.staleBaseModel, ascii "base model revision mismatch"⟩
    else
      match f.worker fence.worker with
      | none => ⟨.staleWorker, ascii "unknown worker"⟩
      | some w =>
        if ¬ w.connected then ⟨.staleWorker, ascii "worker not connected"⟩
        else if fence.worker.isNil ∨ fence.boot.isNil ∨ fence.attempt.isNil then
          ⟨.unknown, ascii "incomplete fence"⟩
        else if fence.boot ≠ w.boot then ⟨.staleBoot, ascii "worker boot mismatch"⟩
        else if ∃ a ∈ f.currentAttempt[fence.adapter.str]?, a ≠ fence.attempt then
          ⟨.staleAttempt, ascii "attempt mismatch"⟩
        else
          let ar := f.authorityRecord fence.adapter
          let rgen := (ar.map (·.fence.residencyGeneration)).getD ⟨1⟩
          let cgen := (ar.map (·.fence.compositionGeneration)).getD ⟨1⟩
          let agen := (ar.map (·.fence.artifactGeneration)).getD ⟨1⟩
          if fence.residencyGeneration ≠ rgen then
            ⟨.staleResidencyGeneration, ascii "residency generation mismatch"⟩
          else if fence.compositionGeneration ≠ cgen then
            ⟨.staleCompositionGeneration, ascii "composition generation mismatch"⟩
          else if fence.artifactGeneration ≠ agen then
            ⟨.staleArtifactGeneration, ascii "artifact generation mismatch"⟩
          else ⟨.authorized, ascii "fence current"⟩

/-- What an authority record looks like once `fence` is bound to it. -/
def granted (ar : AdapterAuthorityRecord) (fence : AuthorityFence) : AdapterAuthorityRecord :=
  { ar with fence, hasAuthority := true, active := true, lifecycle := .active }

def bindAuthority (f : Fabric) (id : AdapterId) (fence : AuthorityFence) :
    Except Error AuthorityCheck × Fabric :=
  let check := f.checkFence fence
  if ¬ check.authorized then (.ok check, f)
  else if ∃ held ∈ f.activeFence, held.adapter ≠ id then
    (.error ⟨.authorityConflict, ascii "another adapter holds exclusive execution authority"⟩, f)
  else
    match f.authority[id.str]? with
    | none => (.error ⟨.notFound, ascii "no authority record for adapter"⟩, f)
    | some ar =>
      (.ok check, { f with
        authority := f.authority.insert id.str (granted ar fence)
        currentAttempt := f.currentAttempt.insert id.str fence.attempt
        activeFence := some fence })

def reuseSafe (f : Fabric) (fence : AuthorityFence) : AuthorityCheck :=
  let check := f.checkFence fence
  if ¬ check.authorized then check
  else
    match f.authorityRecord fence.adapter with
    | none => ⟨.unknown, ascii "no authority for reuse"⟩
    | some ar =>
      if ¬ ar.hasAuthority then ⟨.unknown, ascii "no authority for reuse"⟩
      else if ∃ r ∈ f.residencies[ar.instanceId.str]?, r.ready = true then
        ⟨.authorized, ascii "reuse permitted: current and resident"⟩
      else ⟨.unknown, ascii "reuse denied: not resident/ready"⟩

/-- What an authority record looks like once its authority is taken away. -/
def revoked (ar : AdapterAuthorityRecord) : AdapterAuthorityRecord :=
  { ar with active := false, hasAuthority := false, lifecycle := .invalidated }

def invalidate (f : Fabric) (id : AdapterId) (trigger : InvalidationTrigger) (reason : Bytes) :
    InvalidationRecord × Fabric :=
  let record : InvalidationRecord := {
    trigger
    adapter := id
    reason
    epoch := f.epoch
    priorGeneration := ((f.adapter id).map (·.generation)).getD .none }
  (record, { f with
    invalidationLog := f.invalidationLog ++ [record]
    -- the lifecycle is set unless it is `invalidated` already, so it ends up so either way
    authority := f.authority.modify id.str revoked
    activeFence := f.activeFence.filter (·.adapter ≠ id) })

/-- `evict`: the result and the text left in `reason`. -/
def evict (f : Fabric) (inst : AdapterInstanceId) : (Bool × Bytes) × Fabric :=
  match f.residency inst with
  | none => ((false, ascii "no such instance"), f)
  | some rec =>
    if rec.activeRefs > 0 then ((false, ascii "active references"), f)
    else if rec.pinCount > 0 ∨ rec.protected_ then ((false, ascii "protected or pinned"), f)
    else ((true, ascii "evicted"), { f with residencies := f.residencies.erase inst.str })

def pin (f : Fabric) (inst : AdapterInstanceId) : Except Error Unit × Fabric :=
  match f.residency inst with
  | none => (.error ⟨.notFound, ascii "no such instance"⟩, f)
  | some rec =>
    (.ok (), { f with
      residencies := f.residencies.insert inst.str
        { rec with pinCount := rec.pinCount + 1, protected_ := true } })

def unpin (f : Fabric) (inst : AdapterInstanceId) : Except Error Unit × Fabric :=
  match f.residency inst with
  | none => (.error ⟨.notFound, ascii "no such instance"⟩, f)
  | some rec =>
    let pinCount := if rec.pinCount > 0 then rec.pinCount - 1 else rec.pinCount
    (.ok (), { f with
      residencies := f.residencies.insert inst.str
        { rec with pinCount, protected_ := if pinCount = 0 then false else rec.protected_ } })

/-! ## Snapshot and recovery -/

def snapshot (f : Fabric) : FabricSnapshot where
  epoch := f.epoch
  nextAdapterGeneration := f.nextAdapterGen
  nextCompositionGeneration := f.nextCompositionGen
  adapters := f.adapters.values
  compositions := f.compositions.values
  workers := f.workers.values

def recover (f : Fabric) (s : FabricSnapshot) : Fabric :=
  { f with
    epoch := s.epoch
    nextAdapterGen := s.nextAdapterGeneration
    nextCompositionGen := s.nextCompositionGeneration
    adapters := s.adapters.foldl (fun m a => m.insert a.id.str a) ∅
    compositions := s.compositions.foldl (fun m c => m.insert c.id.str c) ∅
    workers := s.workers.foldl (fun m w => m.insert w.id.str w) ∅ }

/-! ## Worker restart -/

/-- What `on_worker_down` and `on_worker_restart` have in common: records whose fence is `lost` are
revoked, the attempts under their keys forgotten, and a `lost` active fence reset. -/
def revokeWhere (f : Fabric) (lost : AuthorityFence → Bool) : Fabric :=
  { f with
    authority := f.authority.map fun _ ar => if lost ar.fence then revoked ar else ar
    currentAttempt := (Table.keysWhere f.authority fun ar => lost ar.fence).foldl
      (fun t k => t.erase k) f.currentAttempt
    activeFence := f.activeFence.filter fun held => !lost held }

def onWorkerDown (f : Fabric) (id : WorkerId) : Fabric :=
  let f := f.revokeWhere fun fence => fence.worker = id
  { f with
    residencies := f.residencies.map fun _ r =>
      if r.worker = id then { r with ready := false } else r
    workers := f.workers.modify id.str fun w => { w with connected := false } }

def onWorkerRestart (f : Fabric) (id : WorkerId) (newBoot : WorkerBootId) : Fabric :=
  let f := f.revokeWhere fun fence => fence.worker = id ∧ fence.boot ≠ newBoot
  { f with
    residencies := f.residencies.map fun _ r =>
      if r.worker = id ∧ r.boot ≠ newBoot then { r with ready := false, migration := .none }
      else r }

/-! ## Writes through accessors

The coordinator also writes to a Fabric through the pointers and references it hands out. -/

/-- Through `residency(inst)`, when a worker acknowledged a load. -/
def markReady (f : Fabric) (inst : AdapterInstanceId) (bytes : UInt64) : Fabric :=
  { f with residencies := f.residencies.modify inst.str fun r => { r with ready := true, bytes } }

/-- Through `authority_record(id)`. -/
def setLifecycle (f : Fabric) (id : AdapterId) (s : LifecycleState) : Fabric :=
  { f with authority := f.authority.modify id.str fun ar => { ar with lifecycle := s } }

/-- Through `capacity()`. -/
def reserveCapacity (f : Fabric) (loc : ResidencyLocation) (bytes : UInt64) (owner : Bytes) :
    Except Error Unit × Fabric :=
  let (result, capacity) := f.capacity.reserve loc bytes owner
  (result, { f with capacity })

def releaseCapacity (f : Fabric) (loc : ResidencyLocation) (bytes : UInt64) (owner : Bytes) :
    Except Error Unit × Fabric :=
  let (result, capacity) := f.capacity.release loc bytes owner
  (result, { f with capacity })

end Fabric

end AdapterFabric
