import AdapterFabric.Fabric.Step
import AdapterFabric.Lib.Lease

/-!
# AdapterFabric.Fabric.Exclusive

Exclusive execution authority: the authority records are leases on the one slot `active_fence_`.

* `run_exclusive`: every run keeps the leases exclusive.
* `exclusive_authority`: so at most one record is active, with authority, and the slot holds its
  fence.
-/

namespace AdapterFabric

namespace Fabric

/-- The record under `k` is active with fence `F`. -/
def Holds (f : Fabric) (k : Bytes) (F : AuthorityFence) : Prop :=
  ∃ ar, f.authority[k]? = some ar ∧ ar.active = true ∧ ar.fence = F

theorem holds_of_lookup {f : Fabric} {k : Bytes} {F : AuthorityFence}
    (h : f.authority[k]?.map (fun ar => (ar.active, ar.fence)) = some (true, F)) : f.Holds k F := by
  obtain ⟨ar, har, he⟩ := Option.map_eq_some_iff.mp h
  obtain ⟨ha, hF⟩ := Prod.mk.inj he
  exact ⟨ar, har, ha, hF⟩

abbrev Exclusive (f : Fabric) : Prop :=
  Lease.Exclusive (fun F : AuthorityFence => F.adapter.str) f.Holds f.activeFence

/-- Active records have authority. -/
def ActiveHasAuthority (f : Fabric) : Prop :=
  ∀ (k : Bytes) (ar : AdapterAuthorityRecord), f.authority[k]? = some ar → ar.active = true →
    ar.hasAuthority = true

theorem exclusive_step {f : Fabric} {op : Op} (hop : op.Keyed) (h : f.Exclusive) :
    (op.apply f).Exclusive := by
  refine Lease.Exclusive.step h ?_
  rintro k F ⟨ar, har, ha, rfl⟩
  rcases active_step hop har ha with hg | hs
  · exact .inl ⟨hg.slot, hg.key.symm⟩
  · obtain ⟨ar₀, h₀, ha₀, _, hF⟩ := hs.before
    exact .inr ⟨⟨ar₀, h₀, ha₀, hF⟩, fun hkey => hs.slot hkey.symm⟩

theorem activeHasAuthority_step {f : Fabric} {op : Op} (hop : op.Keyed)
    (h : f.ActiveHasAuthority) : (op.apply f).ActiveHasAuthority := by
  intro k ar har ha
  rcases active_step hop har ha with hg | hs
  · exact hg.hasAuthority
  · obtain ⟨ar₀, h₀, ha₀, hauth, _⟩ := hs.before
    rw [← hauth]
    exact h k ar₀ h₀ ha₀

section Run

variable {f₀ : Fabric} {ops : List Op}

theorem Fresh.exclusive {f : Fabric} (h : Fresh f) : f.Exclusive := by
  refine .of_none ?_
  rintro k F ⟨ar, har, _⟩
  rw [h.no_record] at har
  cases har

theorem run_exclusive (hfresh : Fresh f₀) (hops : ∀ op ∈ ops, op.Keyed) :
    (run ops f₀).Exclusive := by
  exact Run.exec_preserves (P := Exclusive) (fun op ho _ => exclusive_step (hops op ho))
    hfresh.exclusive

theorem run_activeHasAuthority (hfresh : Fresh f₀) (hops : ∀ op ∈ ops, op.Keyed) :
    (run ops f₀).ActiveHasAuthority := by
  refine Run.exec_preserves (P := ActiveHasAuthority)
    (fun op ho _ => activeHasAuthority_step (hops op ho)) ?_
  intro k ar har
  rw [hfresh.no_record] at har
  cases har

/-- In every state of every run at most one authority record is active; an active one has authority
and its fence is the active fence. -/
theorem exclusive_authority (hfresh : Fresh f₀) (hops : ∀ op ∈ ops, op.Keyed) :
    (∀ (k k' : Bytes) (ar ar' : AdapterAuthorityRecord), (run ops f₀).authority[k]? = some ar →
      (run ops f₀).authority[k']? = some ar' → ar.active = true → ar'.active = true → k = k') ∧
    ∀ (k : Bytes) (ar : AdapterAuthorityRecord), (run ops f₀).authority[k]? = some ar →
      ar.active = true → ar.hasAuthority = true ∧ (run ops f₀).activeFence = some ar.fence := by
  have hex := run_exclusive hfresh hops
  constructor
  · intro k k' ar ar' har har' ha ha'
    exact hex.unique ⟨ar, har, ha, rfl⟩ ⟨ar', har', ha', rfl⟩
  · intro k ar har ha
    exact ⟨run_activeHasAuthority hfresh hops k ar har ha, (hex k _ ⟨ar, har, ha, rfl⟩).1⟩

end Run

/-! ### A run that binds one fence -/

def sampleAdapter : AdapterDescriptor where
  id := ⟨.ofBytes [1]⟩
  baseModel := ⟨.ofBytes [2]⟩
  baseModelRevision := ⟨.ofBytes [3]⟩
  artifactDigest := [1]
  memoryBytes := 1

def sampleWorker : WorkerRecord where
  id := ⟨.ofBytes [4]⟩
  boot := ⟨.ofBytes [5]⟩
  connected := true

def sampleFence : AuthorityFence where
  adapter := sampleAdapter.id
  adapterGeneration := ⟨1⟩
  compositionGeneration := ⟨1⟩
  residencyGeneration := ⟨1⟩
  artifactGeneration := ⟨1⟩
  baseModelRevision := sampleAdapter.baseModelRevision
  worker := sampleWorker.id
  boot := sampleWorker.boot
  attempt := ⟨.ofBytes [6]⟩

def sampleOps : List Op := [
  .registerAdapter sampleAdapter,
  .registerWorker sampleWorker,
  .createInstance sampleAdapter.id sampleWorker.id sampleWorker.boot .nil 1 .instanceInit,
  .bindAuthority sampleAdapter.id sampleFence]

theorem sampleOps_keyed : ∀ op ∈ sampleOps, op.Keyed := by
  simp [sampleOps, Op.Keyed, sampleFence]

theorem exclusive_authority_sample :
    (run sampleOps .default).activeFence = some sampleFence := by
  obtain ⟨ar, har, ha, hF⟩ := holds_of_lookup (f := run sampleOps .default)
    (k := sampleAdapter.id.str) (F := sampleFence) (by decide +kernel)
  rw [← hF]
  exact ((exclusive_authority .default sampleOps_keyed).2 _ ar har ha).2

end Fabric

end AdapterFabric
