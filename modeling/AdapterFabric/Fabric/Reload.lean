import AdapterFabric.Fabric.Exclusive

/-!
# AdapterFabric.Fabric.Reload

A new instance for an adapter that has one already (`fabric.cpp`).

Every instance is issued under residency generation one, and every fence that is ever bound carries
the generations of the record it replaces. So all of them stay at one, and no check tells two
instances apart.

* `createInstance_checkFence`: creating an instance changes the check of no fence.
* `reload_supersedes_iff`: a reload supersedes the instance before it only when it throws.
-/

namespace AdapterFabric

namespace Fabric

/-! ## The generations that are issued -/

/-- The residency generation of the instance that the operation creates for `a`. -/
def Op.issues (a : AdapterId) (f : Fabric) : Op → Option ResidencyGeneration
  | createInstance adapter worker boot device bytes rng =>
    if adapter = a then
      match f.createInstance adapter worker boot device bytes rng with
      | (.ok inst, f', _) => (f'.residency inst).map (·.residencyGeneration)
      | (.error _, _, _) => none
    else none
  | _ => none

/-- The residency generations that a run issues for `a`. -/
def issued (a : AdapterId) : List Op → Fabric → List ResidencyGeneration
  | [], _ => []
  | op :: ops, f => (op.issues a f).toList ++ issued a ops (op.apply f)

/-- The instance that `op` creates for `a` after `ops` has a greater generation than all before it,
and what was authorized for the instance before it is rejected. -/
def Supersedes (a : AdapterId) (ops : List Op) (f₀ : Fabric) (op : Op) : Prop :=
  (∀ g ∈ op.issues a (run ops f₀), ∀ g' ∈ issued a ops f₀, g'.value < g.value) ∧
    ∀ F : AuthorityFence, F.adapter = a → ((run ops f₀).checkFence F).authorized = true →
      ((op.apply (run ops f₀)).checkFence F).authorized = false

section Issued

variable {f : Fabric} {a : AdapterId}

theorem issues_createInstance (worker : WorkerId) (boot : WorkerBootId) (device : DeviceId)
    (bytes : UInt64) (rng : Rng) :
    (Op.createInstance a worker boot device bytes rng).issues a f =
      (f.adapter a).map fun _ => ⟨1⟩ := by
  simp only [Op.issues, if_true]
  cases hd : f.adapter a with
  | none =>
    rw [createInstance_none worker boot device bytes rng hd]
    rfl
  | some d =>
    rw [createInstance_some worker boot device bytes rng hd]
    simp only [residency, Table.get_insert, if_true]
    rfl

/-- What has a record was issued generation one, unless it had a record before. -/
theorem one_mem_issued {ops : List Op} (hnone : f.authorityRecord a = none)
    (h : ((run ops f).authorityRecord a).isSome) : ⟨1⟩ ∈ issued a ops f := by
  induction ops generalizing f with
  | nil =>
    rw [show (run [] f).authorityRecord a = none from hnone] at h
    cases h
  | cons op ops ih =>
    refine List.mem_append.mpr ?_
    cases hnext : (op.apply f).authorityRecord a with
    | none => exact .inr (ih hnext h)
    | some ar =>
      rcases record_cases hnext with
        ⟨adapter, worker, boot, device, bytes, rng, d, rfl, hk, hd, _⟩ | ⟨ar₀, har₀, _⟩
      · obtain rfl := Id.str_inj hk
        rw [issues_createInstance, hd]
        exact .inl (List.mem_singleton_self _)
      · rw [show f.authorityRecord a = some ar₀ from har₀] at hnone
        cases hnone

end Issued

/-! ## The generations of bound fences -/

/-- The generations that a reload might change are one. -/
structure OneGenerations (F : AuthorityFence) : Prop where
  residency : F.residencyGeneration = ⟨1⟩
  composition : F.compositionGeneration = ⟨1⟩
  artifact : F.artifactGeneration = ⟨1⟩

def AllOne (f : Fabric) : Prop :=
  ∀ (k : Bytes) (ar : AdapterAuthorityRecord), f.authority[k]? = some ar → OneGenerations ar.fence

section AllOne

variable {f : Fabric}

theorem AllOne.expected (h : AllOne f) (a : AdapterId) :
    f.expectedResidencyGeneration a = ⟨1⟩ ∧ f.expectedCompositionGeneration a = ⟨1⟩ ∧
      f.expectedArtifactGeneration a = ⟨1⟩ := by
  unfold expectedResidencyGeneration expectedCompositionGeneration expectedArtifactGeneration
  cases har : f.authorityRecord a with
  | none => exact ⟨rfl, rfl, rfl⟩
  | some ar =>
    have hone := h _ ar har
    exact ⟨hone.residency, hone.composition, hone.artifact⟩

theorem AllOne.authorized (h : AllOne f) {F : AuthorityFence}
    (hauth : (f.checkFence F).authorized = true) : OneGenerations F := by
  obtain ⟨d, w, hc⟩ := checkFence_authorized.mp hauth
  obtain ⟨hres, hcomp, hart⟩ := h.expected F.adapter
  exact ⟨hc.residencyGeneration.trans hres, hc.compositionGeneration.trans hcomp,
    hc.artifactGeneration.trans hart⟩

theorem AllOne.apply (h : AllOne f) (op : Op) : AllOne (op.apply f) := by
  intro k ar' har'
  rcases record_cases har' with ⟨_, _, _, _, _, _, _, _, _, _, rfl⟩ | ⟨ar, har, hcases⟩
  · exact ⟨rfl, rfl, rfl⟩
  · rcases hcases with ⟨_, fence, _, _, hauth, _, rfl⟩ | rfl | rfl | ⟨_, _, _, _, rfl⟩
    · exact h.authorized hauth
    · exact h k ar' har
    · exact h k ar har
    · exact h k ar har

theorem Fresh.allOne (h : Fresh f) : AllOne f := by
  intro k ar har
  rw [h.no_record] at har
  cases har

theorem allOne_run {ops : List Op} (hfresh : Fresh f) : AllOne (run ops f) :=
  Run.exec_preserves (fun op _ _ h => h.apply op) hfresh.allOne

theorem checkFence_congr {g : Fabric} {F : AuthorityFence} (hadapters : g.adapters = f.adapters)
    (hworkers : g.workers = f.workers) (hepoch : g.epoch = f.epoch)
    (hattempt : g.currentAttempt = f.currentAttempt)
    (hres : g.expectedResidencyGeneration F.adapter = f.expectedResidencyGeneration F.adapter)
    (hcomp : g.expectedCompositionGeneration F.adapter = f.expectedCompositionGeneration F.adapter)
    (hart : g.expectedArtifactGeneration F.adapter = f.expectedArtifactGeneration F.adapter) :
    g.checkFence F = f.checkFence F := by
  unfold expectedResidencyGeneration at hres
  unfold expectedCompositionGeneration at hcomp
  unfold expectedArtifactGeneration at hart
  simp only [checkFence, adapter, worker, hadapters, hworkers, hepoch, hattempt, hres, hcomp, hart]

/-- Creating an instance changes the check of no fence. -/
theorem createInstance_checkFence (h : AllOne f) (a : AdapterId) (worker : WorkerId)
    (boot : WorkerBootId) (device : DeviceId) (bytes : UInt64) (rng : Rng) (F : AuthorityFence) :
    (f.createInstance a worker boot device bytes rng).2.1.checkFence F = f.checkFence F := by
  obtain ⟨hres, hcomp, hart⟩ := h.expected F.adapter
  obtain ⟨hres', hcomp', hart'⟩ :=
    (h.apply (.createInstance a worker boot device bytes rng)).expected F.adapter
  cases hd : f.adapter a with
  | none => rw [createInstance_none worker boot device bytes rng hd]
  | some d =>
    simp only [Op.apply, createInstance_some worker boot device bytes rng hd]
      at hres' hcomp' hart' ⊢
    exact checkFence_congr rfl rfl rfl rfl (hres'.trans hres.symm) (hcomp'.trans hcomp.symm)
      (hart'.trans hart.symm)

end AllOne

/-- A reload supersedes the instance before it only when it throws, the adapter being registered no
more; and whatever was authorized before it is authorized after it. -/
theorem reload_supersedes_iff {f₀ : Fabric} {ops : List Op} {a : AdapterId} (hfresh : Fresh f₀)
    (hrecord : ((run ops f₀).authorityRecord a).isSome) (worker : WorkerId) (boot : WorkerBootId)
    (device : DeviceId) (bytes : UInt64) (rng : Rng) :
    (Supersedes a ops f₀ (.createInstance a worker boot device bytes rng) ↔
      (run ops f₀).adapter a = none) ∧
    ∀ F, ((run ops f₀).createInstance a worker boot device bytes rng).2.1.checkFence F =
      (run ops f₀).checkFence F := by
  refine ⟨?_, createInstance_checkFence (allOne_run hfresh) a worker boot device bytes rng⟩
  have hone := one_mem_issued (hfresh.no_record a.str) hrecord
  constructor
  · rintro ⟨hgreater, -⟩
    rw [issues_createInstance] at hgreater
    cases hd : (run ops f₀).adapter a with
    | none => rfl
    | some d =>
      rw [hd] at hgreater
      exact absurd (hgreater ⟨1⟩ rfl ⟨1⟩ hone) (UInt64.lt_irrefl _)
  · intro hd
    rw [Supersedes, issues_createInstance, hd]
    refine ⟨by simp, fun F hF hauth => ?_⟩
    obtain ⟨d, w, hc⟩ := checkFence_authorized.mp hauth
    rw [← hF, hc.adapter] at hd
    cases hd

/-- A second instance of the same adapter on the same worker. -/
def reloadOp : Op :=
  .createInstance sampleAdapter.id sampleWorker.id sampleWorker.boot .nil 1
    (Uuid.generate .instanceInit).2

theorem reload_supersedes_iff_sample :
    ¬ Supersedes sampleAdapter.id (sampleOps.take 3) .default reloadOp := by
  intro h
  have hrecord : ((run (sampleOps.take 3) .default).authorityRecord sampleAdapter.id).isSome := by
    decide +kernel
  have hnone := (reload_supersedes_iff .default hrecord _ _ _ _ _).1.mp h
  revert hnone
  decide +kernel

/-- The fence of the first instance is still authorized when the second one has been created. -/
theorem reload_counterexample :
    ¬ ∀ (f₀ : Fabric) (ops : List Op) (a : AdapterId) (worker : WorkerId) (boot : WorkerBootId)
      (device : DeviceId) (bytes : UInt64) (rng : Rng), Fresh f₀ →
      ((run ops f₀).authorityRecord a).isSome →
      Supersedes a ops f₀ (.createInstance a worker boot device bytes rng) := by
  intro h
  have hrejected := (h .default (sampleOps.take 3) sampleAdapter.id sampleWorker.id
    sampleWorker.boot .nil 1 (Uuid.generate .instanceInit).2 .default (by decide +kernel)).2
    sampleFence rfl (by decide +kernel)
  revert hrejected
  decide +kernel

end Fabric

end AdapterFabric
