import AdapterFabric.Adapter

/-!
# AdapterFabric.Authority

Activation fences and the verdict of a fence check (`authority.hpp`).
-/

namespace AdapterFabric

/-- Everything an execution-relevant activation binds to. -/
structure AuthorityFence where
  adapter : AdapterId := .nil
  composition : CompositionId := .nil
  adapterGeneration : AdapterGeneration := .none
  compositionGeneration : CompositionGeneration := .none
  residencyGeneration : ResidencyGeneration := .none
  artifactGeneration : ArtifactGeneration := .none
  baseModelRevision : ModelRevisionId := .nil
  epoch : CoordinatorEpoch := .none
  worker : WorkerId := .nil
  boot : WorkerBootId := .nil
  attempt : AttemptId := .nil
  device : DeviceId := .nil
  node : NodeId := .nil
deriving DecidableEq

inductive AuthorityVerdict where
  | authorized | staleWorker | staleBoot | staleAttempt | staleAdapterGeneration
  | staleCompositionGeneration | staleResidencyGeneration | staleArtifactGeneration
  | staleBaseModel | staleEpoch | unknown
deriving DecidableEq

structure AuthorityCheck where
  verdict : AuthorityVerdict := .unknown
  reason : Bytes := []
deriving DecidableEq

def AuthorityCheck.authorized (c : AuthorityCheck) : Bool := c.verdict = .authorized

@[simp] theorem AuthorityCheck.authorized_mk (v : AuthorityVerdict) (r : Bytes) :
    (AuthorityCheck.mk v r).authorized = decide (v = .authorized) := rfl

/-- The lambda `reject` of `validate_authority`. -/
def AuthorityCheck.reject (v : AuthorityVerdict) (what : Bytes) : AuthorityCheck :=
  ⟨v, ascii "stale " ++ what⟩

def validateAuthority (c ref : AuthorityFence) : AuthorityCheck :=
  if c.worker ≠ ref.worker then .reject .staleWorker (ascii "worker")
  else if c.boot ≠ ref.boot then .reject .staleBoot (ascii "worker boot")
  else if c.attempt ≠ ref.attempt then .reject .staleAttempt (ascii "attempt")
  else if c.adapterGeneration ≠ ref.adapterGeneration then
    .reject .staleAdapterGeneration (ascii "adapter generation")
  else if c.compositionGeneration ≠ ref.compositionGeneration then
    .reject .staleCompositionGeneration (ascii "composition generation")
  else if c.residencyGeneration ≠ ref.residencyGeneration then
    .reject .staleResidencyGeneration (ascii "residency generation")
  else if c.artifactGeneration ≠ ref.artifactGeneration then
    .reject .staleArtifactGeneration (ascii "artifact generation")
  else if c.baseModelRevision ≠ ref.baseModelRevision then
    .reject .staleBaseModel (ascii "base model revision")
  else if c.epoch ≠ ref.epoch then .reject .staleEpoch (ascii "coordinator epoch")
  else ⟨.authorized, ascii "all authority factors current"⟩

end AdapterFabric
