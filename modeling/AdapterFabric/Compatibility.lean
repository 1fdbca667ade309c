import AdapterFabric.Adapter

/-!
# AdapterFabric.Compatibility

The compatibility evaluation and its JSON report (`compatibility.hpp`, `compatibility.cpp`,
`explain.cpp`).
-/

namespace AdapterFabric

open Std

inductive FactorStatus where
  | accepted | rejected | missing
deriving DecidableEq

def FactorStatus.toBytes : FactorStatus → Bytes
  | .accepted => ascii "accepted"
  | .rejected => ascii "rejected"
  | .missing => ascii "missing"

structure CompatibilityFactor where
  name : Bytes
  status : FactorStatus := .accepted
  detail : Bytes
  reason : Bytes
deriving DecidableEq

/-- The part of the target that the evaluation reads. -/
structure CompatibilityTarget where
  baseModel : BaseModelId := .nil
  baseModelRevision : ModelRevisionId := .nil
  runtimeCapabilities : ExtTreeMap Bytes Bytes compare := ∅
  policyGeneration : PolicyGeneration := .none

structure CompatibilityReport where
  compatible : Bool := false
  factors : List CompatibilityFactor := []
  adapterGeneration : AdapterGeneration := .none
  policyGeneration : PolicyGeneration := .none
  baseModelRevision : ModelRevisionId := .nil
  summary : Bytes := []

namespace CompatibilityReport

def hasRejections (factors : List CompatibilityFactor) : Bool :=
  factors.any (·.status = .rejected)

def firstRejectionReason (factors : List CompatibilityFactor) : Bytes :=
  ((factors.find? (·.status = .rejected)).map (·.reason)).getD []

end CompatibilityReport

namespace Compatibility

/-- The source's lambdas `acc`, `rej` and `miss`. -/
def acc (name : String) (detail : Bytes) : CompatibilityFactor :=
  ⟨ascii name, .accepted, detail, []⟩

def rej (name : String) (detail reason : Bytes) : CompatibilityFactor :=
  ⟨ascii name, .rejected, detail, reason⟩

def miss (name : String) (detail : Bytes) : CompatibilityFactor :=
  ⟨ascii name, .missing, detail, []⟩

section Factors

variable (a : AdapterDescriptor) (t : CompatibilityTarget)

def baseModelFactor : CompatibilityFactor :=
  if a.baseModel = t.baseModel ∧ ¬ a.baseModel.isNil then
    acc "base_model" (ascii "adapter base model matches target")
  else if a.baseModel.isNil then
    rej "base_model" (ascii "adapter declares no base model") (ascii "nil base model identity")
  else
    rej "base_model" (ascii "base model ids differ")
      (ascii "adapter targets a different base model")

def baseModelRevisionFactor : CompatibilityFactor :=
  if a.baseModelRevision = t.baseModelRevision ∧ ¬ a.baseModelRevision.isNil then
    acc "base_model_revision" (ascii "adapter revision matches target")
  else if a.baseModelRevision.isNil then
    rej "base_model_revision" (ascii "adapter declares no model revision")
      (ascii "nil model revision identity")
  else
    rej "base_model_revision" (ascii "model revisions differ")
      (ascii "adapter is pinned to a different model revision")

def targetsFactor : CompatibilityFactor :=
  if a.targets.isEmpty then
    rej "targets" (ascii "adapter declares no target modules") (ascii "no target modules")
  else if a.targets.any fun x => x.inFeatures = 0 ∨ x.outFeatures = 0 then
    rej "targets" (ascii "a target has zero in/out features") (ascii "invalid target dimensions")
  else
    acc "targets"
      (ascii "adapter declares " ++ decimal a.targets.length ++ ascii " target module(s)")

def rankFactor : CompatibilityFactor :=
  if a.kind = .lora ∨ a.kind = .generic then
    if a.rank > 0 then
      acc "rank" (ascii "adapter rank " ++ decimal a.rank.toNat ++ ascii ">0")
    else
      rej "rank" (ascii "adapter rank is zero")
        (ascii "zero rank is not a valid low-rank adapter")
  else
    acc "rank" (ascii "non-low-rank adapter; rank not applicable")

def dtypeFactor : CompatibilityFactor :=
  if a.dtype = .unknown then
    rej "dtype" (ascii "adapter dtype unknown") (ascii "no dtype declared")
  else if a.dtype = .f16 ∨ a.dtype = .bf16 then
    if t.runtimeCapabilities[ascii "fp16"]? = some (ascii "supported") then
      acc "dtype" (ascii "half precision supported by target")
    else
      rej "dtype" (ascii "half dtype requested")
        (ascii "target does not declare fp16/bf16 support")
  else if a.dtype = .f32 then
    acc "dtype" (ascii "f32 dtype always accepted")
  else
    rej "dtype" (ascii "dtype not covered by backend") (ascii "unsupported dtype for this target")

def capabilityFactor (c : RuntimeCapability) : CompatibilityFactor :=
  match t.runtimeCapabilities[c.name]? with
  | none =>
    if c.required then
      rej "device_capability" (ascii "missing capability " ++ c.name)
        (ascii "required capability not present on target")
    else
      acc "device_capability" (ascii "optional capability " ++ c.name ++ ascii " absent")
  | some value =>
    if value = c.value then
      acc "device_capability" (ascii "capability " ++ c.name ++ ascii " satisfied")
    else
      rej "device_capability" (ascii "capability mismatch " ++ c.name)
        (ascii "target differs from required")

def capabilityFactors : List CompatibilityFactor :=
  if a.capabilities.isEmpty then
    [miss "device_capability" (ascii "adapter declares no runtime capabilities")]
  else a.capabilities.map (capabilityFactor t)

def dependencyFactor (d : Dependency) : CompatibilityFactor :=
  if d.version ≠ [] then
    acc "dependency" (ascii "dependency " ++ d.name ++ ascii " declared")
  else
    rej "dependency" (ascii "dependency " ++ d.name ++ ascii " has no version")
      (ascii "unversioned dependency")

def dependencyFactors : List CompatibilityFactor :=
  if a.dependencies.isEmpty then [acc "dependencies" (ascii "no dependencies declared")]
  else a.dependencies.map dependencyFactor

def artifactFactor : CompatibilityFactor :=
  if a.artifactDigest.isEmpty then
    rej "artifact" (ascii "adapter has no artifact digest") (ascii "missing digest")
  else acc "artifact" (ascii "artifact digest present")

def validationFactor : CompatibilityFactor :=
  if a.validation ≠ .valid then
    miss "validation" (ascii "adapter not yet validated; revalidate before load")
  else acc "validation" (ascii "adapter artifact validated")

end Factors

end Compatibility

open Compatibility in
def evaluateCompatibility (a : AdapterDescriptor) (t : CompatibilityTarget) :
    CompatibilityReport :=
  let factors :=
    [baseModelFactor a t, baseModelRevisionFactor a t, targetsFactor a, rankFactor a,
      dtypeFactor a t] ++ capabilityFactors a t ++ dependencyFactors a ++
      [artifactFactor a, validationFactor a]
  let compatible := !CompatibilityReport.hasRejections factors
  { compatible
    factors
    adapterGeneration := a.generation
    policyGeneration := t.policyGeneration
    baseModelRevision := t.baseModelRevision
    summary :=
      if compatible then ascii "compatible"
      else ascii "incompatible: " ++ CompatibilityReport.firstRejectionReason factors }

/-! ## The JSON text -/

def jsonEscape (s : Bytes) : Bytes :=
  s.flatMap fun (c : UInt8) =>
    if c = 34 then [92, 34]
    else if c = 92 then [92, 92]
    else if c = 10 then ascii "\\n"
    else if c = 13 then ascii "\\r"
    else if c = 9 then ascii "\\t"
    else [c]

def CompatibilityFactor.toJson (f : CompatibilityFactor) : Bytes :=
  ascii "\x7b\"name\":\"" ++ jsonEscape f.name ++ ascii "\",\"status\":\"" ++ f.status.toBytes ++
    ascii "\",\"detail\":\"" ++ jsonEscape f.detail ++ ascii "\",\"reason\":\"" ++
    jsonEscape f.reason ++ ascii "\"\x7d"

/-- `to_json` on a report: the factors are separated by commas. -/
def CompatibilityReport.toJson (r : CompatibilityReport) : Bytes :=
  ascii "\x7b\"compatible\":" ++ ascii (if r.compatible then "true" else "false") ++
    ascii ",\"summary\":\"" ++ jsonEscape r.summary ++ ascii "\",\"factors\":[" ++
    (ascii ",").intercalate (r.factors.map CompatibilityFactor.toJson) ++ ascii "]\x7d"

end AdapterFabric
