import AdapterFabric.Compatibility

/-!
# AdapterFabric.Compatibility.Verdict

What the verdict of `evaluate_compatibility` says (`compatibility.cpp`).

* `Rule`: the rules of the evaluation, with what each asks for and the reason it gives.
* `verdict_exact`: the verdict is that all rules hold, whatever the order of targets, capabilities
  and dependencies, and a negative summary quotes the first rule that does not.
-/

namespace AdapterFabric

namespace Compatibility

inductive Rule where
  | baseModel
  | baseModelRevision
  | targets
  | rank
  | dtype
  | capability (c : RuntimeCapability)
  | dependency (d : Dependency)
  | artifact

/-- The rules for an adapter, in the order of the evaluation. -/
def rules (a : AdapterDescriptor) : List Rule :=
  [.baseModel, .baseModelRevision, .targets, .rank, .dtype] ++ a.capabilities.map .capability ++
    a.dependencies.map .dependency ++ [.artifact]

namespace Rule

variable (a : AdapterDescriptor) (t : CompatibilityTarget)

/-- What a rule asks for. -/
def Holds : Rule → Prop
  | baseModel => a.baseModel.isNil = false ∧ a.baseModel = t.baseModel
  | baseModelRevision =>
    a.baseModelRevision.isNil = false ∧ a.baseModelRevision = t.baseModelRevision
  | targets => a.targets ≠ [] ∧ ∀ x ∈ a.targets, x.inFeatures ≠ 0 ∧ x.outFeatures ≠ 0
  | rank => a.kind = .lora ∨ a.kind = .generic → 0 < a.rank
  | dtype => a.dtype = .f32 ∨ (a.dtype = .f16 ∨ a.dtype = .bf16) ∧
      t.runtimeCapabilities[ascii "fp16"]? = some (ascii "supported")
  | capability c => t.runtimeCapabilities[c.name]? = some c.value ∨
      (t.runtimeCapabilities[c.name]? = none ∧ c.required = false)
  | dependency d => d.version ≠ []
  | artifact => a.artifactDigest ≠ []

/-- The reason a violated rule gives. -/
def reason : Rule → Bytes
  | baseModel =>
    if a.baseModel.isNil then ascii "nil base model identity"
    else ascii "adapter targets a different base model"
  | baseModelRevision =>
    if a.baseModelRevision.isNil then ascii "nil model revision identity"
    else ascii "adapter is pinned to a different model revision"
  | targets =>
    if a.targets.isEmpty then ascii "no target modules" else ascii "invalid target dimensions"
  | rank => ascii "zero rank is not a valid low-rank adapter"
  | dtype =>
    if a.dtype = .unknown then ascii "no dtype declared"
    else if a.dtype = .f16 ∨ a.dtype = .bf16 then
      ascii "target does not declare fp16/bf16 support"
    else ascii "unsupported dtype for this target"
  | capability c =>
    if t.runtimeCapabilities[c.name]?.isNone then ascii "required capability not present on target"
    else ascii "target differs from required"
  | dependency _ => ascii "unversioned dependency"
  | artifact => ascii "missing digest"

/-- The factor that the evaluation records for a rule. -/
def factor : Rule → CompatibilityFactor
  | baseModel => baseModelFactor a t
  | baseModelRevision => baseModelRevisionFactor a t
  | targets => targetsFactor a
  | rank => rankFactor a
  | dtype => dtypeFactor a t
  | capability c => capabilityFactor t c
  | dependency d => dependencyFactor d
  | artifact => artifactFactor a

theorem factor_cases (r : Rule) :
    (r.Holds a t ∧ (r.factor a t).status = .accepted) ∨
    (¬ r.Holds a t ∧ (r.factor a t).status = .rejected ∧
      (r.factor a t).reason = r.reason a t) := by
  cases r with
  | baseModel =>
    simp only [Holds, factor, reason, baseModelFactor]
    by_cases hnil : a.baseModel.isNil = true
    · simp [hnil, rej]
    · by_cases heq : a.baseModel = t.baseModel
      · simp [hnil, ← heq, acc]
      · simp [hnil, heq, rej]
  | baseModelRevision =>
    simp only [Holds, factor, reason, baseModelRevisionFactor]
    by_cases hnil : a.baseModelRevision.isNil = true
    · simp [hnil, rej]
    · by_cases heq : a.baseModelRevision = t.baseModelRevision
      · simp [hnil, ← heq, acc]
      · simp [hnil, heq, rej]
  | targets =>
    simp only [Holds, factor, reason, targetsFactor]
    by_cases hempty : a.targets = []
    · simp [hempty, rej]
    · by_cases hzero : (a.targets.any fun x => x.inFeatures = 0 ∨ x.outFeatures = 0) = true
      · have hbad : ¬ ∀ x ∈ a.targets, x.inFeatures ≠ 0 ∧ x.outFeatures ≠ 0 := by
          obtain ⟨x, hx, hx0⟩ := List.any_eq_true.mp hzero
          intro hall
          have := hall x hx
          simp_all
        rw [if_neg (by simpa using hempty), if_pos hzero, if_neg (by simpa using hempty)]
        exact .inr ⟨fun h => hbad h.2, rfl, rfl⟩
      · have hgood : ∀ x ∈ a.targets, x.inFeatures ≠ 0 ∧ x.outFeatures ≠ 0 := by
          simpa using hzero
        rw [if_neg (by simpa using hempty), if_neg hzero]
        exact .inl ⟨⟨hempty, hgood⟩, rfl⟩
  | rank =>
    simp only [Holds, factor, reason, rankFactor]
    by_cases hkind : a.kind = .lora ∨ a.kind = .generic
    · by_cases hrank : 0 < a.rank
      · simp [hkind, hrank, acc]
      · simp [hkind, hrank, rej]
    · simp [hkind, acc]
  | dtype =>
    simp only [Holds, factor, reason, dtypeFactor]
    by_cases hunknown : a.dtype = .unknown
    · have hrej : ¬ (DType.unknown = .f32 ∨ (DType.unknown = .f16 ∨ DType.unknown = .bf16) ∧
          t.runtimeCapabilities[ascii "fp16"]? = some (ascii "supported")) := by
        simp [DType.unknown, DType.f32, DType.f16, DType.bf16]
      rw [if_pos hunknown, if_pos hunknown, hunknown]
      exact .inr ⟨hrej, rfl, rfl⟩
    · rw [if_neg hunknown, if_neg hunknown]
      by_cases hhalf : a.dtype = .f16 ∨ a.dtype = .bf16
      · have hne : a.dtype ≠ .f32 := by rcases hhalf with h | h <;> rw [h] <;> decide
        by_cases hfp16 : t.runtimeCapabilities[ascii "fp16"]? = some (ascii "supported")
        · simp [hhalf, hfp16, acc]
        · simp [hhalf, hfp16, hne, rej]
      · by_cases hf32 : a.dtype = .f32
        · rw [if_neg hhalf, if_pos hf32]
          exact .inl ⟨.inl hf32, rfl⟩
        · simp [hhalf, hf32, rej]
  | capability c =>
    simp only [Holds, factor, reason, capabilityFactor]
    cases hc : t.runtimeCapabilities[c.name]? with
    | none => cases c.required <;> simp [acc, rej]
    | some value =>
      by_cases heq : value = c.value <;> simp [heq, acc, rej]
  | dependency d =>
    simp only [Holds, factor, reason, dependencyFactor]
    by_cases hv : d.version = [] <;> simp [hv, acc, rej]
  | artifact =>
    simp only [Holds, factor, reason, artifactFactor]
    by_cases hd : a.artifactDigest = [] <;> simp [hd, acc, rej]

theorem rejected_iff {a : AdapterDescriptor} {t : CompatibilityTarget} {r : Rule} :
    (r.factor a t).status = .rejected ↔ ¬ r.Holds a t := by
  rcases r.factor_cases a t with ⟨h, hs⟩ | ⟨h, hs, -⟩
  · simp [h, hs]
  · simp [h, hs]

end Rule

section Factors

variable (a : AdapterDescriptor) (t : CompatibilityTarget)

/-- The first rejected factor is that of the first rule that is recorded as rejected: what the
evaluation records besides the rules is never a rejection. -/
theorem find?_factors :
    (evaluateCompatibility a t).factors.find? (·.status = .rejected) =
      ((rules a).find? fun r => (r.factor a t).status = .rejected).map (·.factor a t) := by
  have hcaps : (capabilityFactors a t).find? (·.status = .rejected) =
      ((a.capabilities.map Rule.capability).map (·.factor a t)).find? (·.status = .rejected) := by
    unfold capabilityFactors
    cases a.capabilities with
    | nil => rfl
    | cons c cs =>
      rw [List.map_map]
      rfl
  have hdeps : (dependencyFactors a).find? (·.status = .rejected) =
      ((a.dependencies.map Rule.dependency).map (·.factor a t)).find? (·.status = .rejected) := by
    unfold dependencyFactors
    cases a.dependencies with
    | nil => rfl
    | cons d ds =>
      rw [List.map_map]
      rfl
  have hlast : [artifactFactor a, validationFactor a].find? (·.status = .rejected) =
      [artifactFactor a].find? (·.status = .rejected) := by
    have hval : ¬ (validationFactor a).status = .rejected := by
      unfold validationFactor
      split <;> simp [miss, acc]
    simp [List.find?_cons, hval]
  have hmap : ((rules a).map (·.factor a t)).find? (·.status = .rejected) =
      ((rules a).find? fun r => (r.factor a t).status = .rejected).map (·.factor a t) :=
    List.find?_map
  rw [← hmap]
  simp only [evaluateCompatibility, rules, List.map_append, List.find?_append, hcaps, hdeps, hlast]
  rfl

theorem compatible_iff_find? : (evaluateCompatibility a t).compatible = true ↔
    (evaluateCompatibility a t).factors.find? (·.status = .rejected) = none := by
  simp only [evaluateCompatibility, CompatibilityReport.hasRejections, Bool.not_eq_true',
    List.any_eq_false, List.find?_eq_none]

theorem compatible_iff :
    (evaluateCompatibility a t).compatible = true ↔ ∀ r ∈ rules a, r.Holds a t := by
  rw [compatible_iff_find?, find?_factors, Option.map_eq_none_iff, List.find?_eq_none]
  simp only [decide_eq_true_eq, Rule.rejected_iff, not_not]

theorem summary_of_incompatible (h : (evaluateCompatibility a t).compatible = false) :
    ∃ pre r post, rules a = pre ++ r :: post ∧ (∀ q ∈ pre, q.Holds a t) ∧ ¬ r.Holds a t ∧
      (evaluateCompatibility a t).summary = ascii "incompatible: " ++ r.reason a t := by
  cases hfirst : (rules a).find? fun r => (r.factor a t).status = .rejected with
  | none =>
    have := (compatible_iff_find? a t).mpr (by rw [find?_factors, hfirst]; rfl)
    rw [h] at this
    cases this
  | some r =>
    obtain ⟨hrej, pre, post, hsplit, hpre⟩ := List.find?_eq_some_iff_append.mp hfirst
    have hviol : ¬ r.Holds a t := Rule.rejected_iff.mp (of_decide_eq_true hrej)
    refine ⟨pre, r, post, hsplit, fun q hq => ?_, hviol, ?_⟩
    · have hacc := hpre q hq
      rw [Bool.not_eq_true', decide_eq_false_iff_not, Rule.rejected_iff, not_not] at hacc
      exact hacc
    · have hreason : (r.factor a t).reason = r.reason a t := by
        rcases r.factor_cases a t with ⟨hholds, -⟩ | ⟨-, -, he⟩
        · exact absurd hholds hviol
        · exact he
      have hquoted : CompatibilityReport.firstRejectionReason
          (evaluateCompatibility a t).factors = r.reason a t := by
        rw [CompatibilityReport.firstRejectionReason, find?_factors, hfirst]
        exact hreason
      have hsummary : (evaluateCompatibility a t).summary =
          if (evaluateCompatibility a t).compatible then ascii "compatible"
          else ascii "incompatible: " ++
            CompatibilityReport.firstRejectionReason (evaluateCompatibility a t).factors := rfl
      rw [hsummary, h, hquoted]
      rfl

end Factors

/-- All that the evaluation asks for. -/
structure Meets (a : AdapterDescriptor) (t : CompatibilityTarget) : Prop where
  baseModel : a.baseModel.isNil = false ∧ a.baseModel = t.baseModel
  baseModelRevision :
    a.baseModelRevision.isNil = false ∧ a.baseModelRevision = t.baseModelRevision
  targets : a.targets ≠ [] ∧ ∀ x ∈ a.targets, x.inFeatures ≠ 0 ∧ x.outFeatures ≠ 0
  rank : a.kind = .lora ∨ a.kind = .generic → 0 < a.rank
  dtype : a.dtype = .f32 ∨ (a.dtype = .f16 ∨ a.dtype = .bf16) ∧
    t.runtimeCapabilities[ascii "fp16"]? = some (ascii "supported")
  capabilities : ∀ c ∈ a.capabilities, t.runtimeCapabilities[c.name]? = some c.value ∨
    (t.runtimeCapabilities[c.name]? = none ∧ c.required = false)
  dependencies : ∀ d ∈ a.dependencies, d.version ≠ []
  artifact : a.artifactDigest ≠ []

theorem meets_iff (a : AdapterDescriptor) (t : CompatibilityTarget) :
    Meets a t ↔ ∀ r ∈ rules a, r.Holds a t := by
  simp only [rules, List.forall_mem_append, List.forall_mem_map, List.forall_mem_cons,
    List.not_mem_nil, false_imp_iff, implies_true, and_true, Rule.Holds]
  constructor
  · intro h
    exact ⟨⟨⟨⟨h.baseModel, h.baseModelRevision, h.targets, h.rank, h.dtype⟩, h.capabilities⟩,
      h.dependencies⟩, h.artifact⟩
  · rintro ⟨⟨⟨⟨hbase, hrev, htargets, hrank, hdtype⟩, hcaps⟩, hdeps⟩, hartifact⟩
    exact ⟨hbase, hrev, htargets, hrank, hdtype, hcaps, hdeps, hartifact⟩

/-- The order of targets, capabilities and dependencies does not matter, and neither does the
validation state. -/
theorem Meets.congr {a a' : AdapterDescriptor} {t : CompatibilityTarget}
    (h : Meets a t) {targets capabilities dependencies} {validation : ValidationState}
    (htargets : targets.Perm a.targets) (hcaps : capabilities.Perm a.capabilities)
    (hdeps : dependencies.Perm a.dependencies)
    (ha' : a' = { a with targets, capabilities, dependencies, validation }) : Meets a' t := by
  subst ha'
  exact {
    baseModel := h.baseModel
    baseModelRevision := h.baseModelRevision
    targets := ⟨fun hnil => h.targets.1 (by
      have : targets = [] := hnil
      subst this
      exact htargets.nil_eq.symm), fun x hx => h.targets.2 x (htargets.mem_iff.mp hx)⟩
    rank := h.rank
    dtype := h.dtype
    capabilities := fun c hc => h.capabilities c (hcaps.mem_iff.mp hc)
    dependencies := fun d hd => h.dependencies d (hdeps.mem_iff.mp hd)
    artifact := h.artifact }

end Compatibility

open Compatibility

theorem verdict_exact (a : AdapterDescriptor) (t : CompatibilityTarget) :
    ((evaluateCompatibility a t).compatible = true ↔ Meets a t) ∧
    ((evaluateCompatibility a t).compatible = true ↔
      ∀ x ∈ (evaluateCompatibility a t).factors, x.status = .accepted ∨ x.status = .missing) ∧
    (∀ targets capabilities dependencies validation, targets.Perm a.targets →
      capabilities.Perm a.capabilities → dependencies.Perm a.dependencies →
      (evaluateCompatibility { a with targets, capabilities, dependencies, validation }
        t).compatible = (evaluateCompatibility a t).compatible) ∧
    ((evaluateCompatibility a t).compatible = false → ∃ pre r post,
      rules a = pre ++ r :: post ∧ (∀ q ∈ pre, q.Holds a t) ∧ ¬ r.Holds a t ∧
      (evaluateCompatibility a t).summary = ascii "incompatible: " ++ r.reason a t) := by
  have hmeets (a : AdapterDescriptor) :
      (evaluateCompatibility a t).compatible = true ↔ Meets a t :=
    (compatible_iff a t).trans (meets_iff a t).symm
  refine ⟨hmeets a, ?_, ?_, summary_of_incompatible a t⟩
  · rw [compatible_iff_find?, List.find?_eq_none]
    refine forall₂_congr fun x _ => ?_
    cases x.status <;> simp
  · intro targets capabilities dependencies validation htargets hcaps hdeps
    rw [Bool.eq_iff_iff, hmeets, hmeets]
    constructor
    · intro h
      exact h.congr htargets.symm hcaps.symm hdeps.symm rfl
    · intro h
      exact h.congr htargets hcaps hdeps rfl

/-! ### A target with another version of what the adapter requires -/

def cudaAdapter : AdapterDescriptor where
  baseModel := ⟨.ofBytes [1]⟩
  baseModelRevision := ⟨.ofBytes [2]⟩
  artifactDigest := [3]
  targets := [⟨ascii "q_proj", 64, 64, [64, 64]⟩, ⟨ascii "v_proj", 64, 32, [64, 32]⟩]
  rank := 8
  dtype := .f16
  capabilities := [⟨ascii "cuda", ascii "12", true⟩, ⟨ascii "graphs", ascii "on", false⟩]
  dependencies := [⟨ascii "runtime", ascii "1.2", ascii "exact"⟩]

def cudaTarget : CompatibilityTarget where
  baseModel := ⟨.ofBytes [1]⟩
  baseModelRevision := ⟨.ofBytes [2]⟩
  runtimeCapabilities := .ofList [(ascii "fp16", ascii "supported"), (ascii "cuda", ascii "11")]

theorem verdict_exact_sample :
    (evaluateCompatibility cudaAdapter cudaTarget).compatible = false ∧
    (evaluateCompatibility { cudaAdapter with capabilities := cudaAdapter.capabilities.reverse }
      cudaTarget).compatible = false ∧
    ∃ r ∈ rules cudaAdapter, ¬ r.Holds cudaAdapter cudaTarget ∧
      (evaluateCompatibility cudaAdapter cudaTarget).summary =
        ascii "incompatible: " ++ r.reason cudaAdapter cudaTarget := by
  obtain ⟨-, -, hperm, hfirst⟩ := verdict_exact cudaAdapter cudaTarget
  have h : (evaluateCompatibility cudaAdapter cudaTarget).compatible = false := by decide +kernel
  have hreverse := hperm _ _ _ .none (.refl _) (List.reverse_perm _) (.refl _)
  obtain ⟨pre, r, post, hsplit, -, hviolated, hsummary⟩ := hfirst h
  exact ⟨h, hreverse.trans h, r, by rw [hsplit]; simp, hviolated, hsummary⟩

end AdapterFabric
