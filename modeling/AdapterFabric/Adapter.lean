import AdapterFabric.Error

/-!
# AdapterFabric.Adapter

The domain records (`adapter.hpp`, `inventory.hpp`, `invalidation.hpp`, `lifecycle.hpp`,
`residency.hpp`).

The enumerations a decoder casts from a byte (`AdapterKind`, `DType`, `ValidationState`) are kept
as their underlying byte: in the source they can hold any value of it.
-/

namespace AdapterFabric

structure AdapterKind where
  byte : UInt8
deriving DecidableEq

namespace AdapterKind

def generic : AdapterKind := ⟨0⟩
def lora : AdapterKind := ⟨1⟩
def fullFinetune : AdapterKind := ⟨2⟩
def prefixTuning : AdapterKind := ⟨3⟩
def custom : AdapterKind := ⟨255⟩

end AdapterKind

structure DType where
  byte : UInt8
deriving DecidableEq

namespace DType

def unknown : DType := ⟨0⟩
def f32 : DType := ⟨1⟩
def f16 : DType := ⟨2⟩
def bf16 : DType := ⟨3⟩
def f8E4m3 : DType := ⟨4⟩
def f8E5m2 : DType := ⟨5⟩
def int8 : DType := ⟨6⟩
def int4 : DType := ⟨7⟩

end DType

structure ValidationState where
  byte : UInt8
deriving DecidableEq

namespace ValidationState

def none : ValidationState := ⟨0⟩
def validating : ValidationState := ⟨1⟩
def valid : ValidationState := ⟨2⟩
def invalid : ValidationState := ⟨3⟩

end ValidationState

structure TargetModule where
  name : Bytes := []
  inFeatures : UInt32 := 0
  outFeatures : UInt32 := 0
  shape : List UInt32 := []
deriving DecidableEq

structure Dependency where
  name : Bytes
  version : Bytes
  requirement : Bytes
deriving DecidableEq

structure RuntimeCapability where
  name : Bytes
  value : Bytes
  required : Bool := true
deriving DecidableEq

structure ExecutionConstraint where
  key : Bytes
  value : Bytes
deriving DecidableEq

structure Provenance where
  source : Bytes := []
  author : Bytes := []
  timestamp : Bytes := []
  originDigest : Bytes := []
  notes : Bytes := []
deriving DecidableEq

/-- Canonical metadata of one adapter revision. -/
structure AdapterDescriptor where
  id : AdapterId := .nil
  revision : AdapterRevisionId := .nil
  artifact : AdapterArtifactId := .nil
  artifactDigest : Bytes := []
  kind : AdapterKind := .generic
  name : Bytes := []
  baseModel : BaseModelId := .nil
  baseModelRevision : ModelRevisionId := .nil
  targets : List TargetModule := []
  rank : UInt32 := 0
  dtype : DType := .unknown
  paramCount : UInt64 := 0
  paramBytes : UInt64 := 0
  memoryBytes : UInt64 := 0
  format : Bytes := []
  formatVersion : UInt32 := 1
  dependencies : List Dependency := []
  capabilities : List RuntimeCapability := []
  constraints : List ExecutionConstraint := []
  provenance : Provenance := {}
  generation : AdapterGeneration := .none
  policyGeneration : PolicyGeneration := .none
  validation : ValidationState := .none
deriving DecidableEq

structure WorkerCapability where
  name : Bytes
  value : Bytes
deriving DecidableEq

/-- The durable record of a registered worker. -/
structure WorkerRecord where
  id : WorkerId := .nil
  boot : WorkerBootId := .nil
  address : Bytes := []
  node : NodeId := .nil
  device : DeviceId := .nil
  connected : Bool := false
  epoch : CoordinatorEpoch := .none
  capabilities : List WorkerCapability := []
  deviceMemoryBytes : UInt64 := 0
  localAdapters : List AdapterId := []
deriving DecidableEq

inductive InvalidationTrigger where
  | adapterRevisionChange | artifactDigestChange | baseModelRevisionChange
  | compatibilityPolicyChange | dependencyChange | workerRestart | deviceLoss
  | residencyGenerationRoll | compositionChange | authorityEpochRoll | corruption | manual
deriving DecidableEq

structure InvalidationRecord where
  trigger : InvalidationTrigger
  adapter : AdapterId
  reason : Bytes
  epoch : CoordinatorEpoch
  priorGeneration : AdapterGeneration := .none
deriving DecidableEq

inductive LifecycleState where
  | declared | validating | valid | loading | loaded | ready | active | deactivating | migrating
  | stale | invalidated | evicting | evicted | failed | retired
deriving DecidableEq

/-- `lifecycle_can_transition`: the allow-list. -/
def lifecycleCanTransition : LifecycleState → LifecycleState → Bool
  | .declared, dst => dst ∈ [.declared, .validating, .evicting, .invalidated, .retired, .failed]
  | .validating, dst => dst ∈ [.valid, .declared, .stale, .invalidated, .retired, .failed]
  | .valid, dst =>
    dst ∈ [.valid, .validating, .loading, .stale, .invalidated, .evicting, .evicted, .retired,
      .failed]
  | .loading, dst =>
    dst ∈ [.loaded, .ready, .stale, .invalidated, .evicting, .failed, .evicted]
  | .loaded, dst => dst ∈ [.ready, .loaded, .loading, .stale, .invalidated, .evicting, .failed]
  | .ready, dst =>
    dst ∈ [.active, .ready, .loaded, .migrating, .stale, .invalidated, .evicting, .failed]
  | .active, dst => dst ∈ [.deactivating, .migrating, .stale, .invalidated, .failed, .evicting]
  | .deactivating, dst => dst ∈ [.ready, .active, .stale, .invalidated, .evicting, .failed]
  | .migrating, dst => dst ∈ [.ready, .active, .stale, .invalidated, .evicting, .failed]
  | .stale, dst => dst ∈ [.validating, .loading, .evicting, .invalidated, .failed, .retired]
  | .invalidated, dst => dst ∈ [.declared, .loading, .evicting, .retired, .failed]
  | .evicting, dst => dst ∈ [.evicted, .invalidated, .failed, .retired]
  | .evicted, dst => dst ∈ [.declared, .retired, .failed]
  | .failed, dst => dst ∈ [.declared, .validating, .retired, .evicting, .invalidated]
  | .retired, dst => dst = .retired

inductive ResidencyLocation where
  | deviceMemory | pinnedHost | pageableHost | processLocal | nodeLocal | persistentStorage
deriving DecidableEq

inductive MigrationState where
  | none | targetReserved | transferring | verifying | destReady | migrating | sourceRetiring
  | sourceReleased
deriving DecidableEq

/-- One instance of an adapter on a worker, under one boot of it. -/
structure ResidencyRecord where
  instanceId : AdapterInstanceId
  adapterId : AdapterId
  adapterGeneration : AdapterGeneration
  residencyGeneration : ResidencyGeneration
  location : ResidencyLocation := .processLocal
  bytes : UInt64 := 0
  worker : WorkerId
  boot : WorkerBootId
  epoch : CoordinatorEpoch
  device : DeviceId
  ready : Bool := false
  activeRefs : UInt32 := 0
  pinCount : UInt32 := 0
  protected_ : Bool := false
  migration : MigrationState := .none
deriving DecidableEq

end AdapterFabric
