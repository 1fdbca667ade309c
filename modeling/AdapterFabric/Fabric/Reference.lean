import AdapterFabric.Fabric.BoundFence

/-!
# AdapterFabric.Fabric.Reference

Two checks of a fence: against the registry (`check_fence`, `fabric.cpp`), and against a fence
that was granted (`validate_authority`, `authority.cpp`).

* `validateAuthority_iff`: as long as the bound fence is current, the second one authorizes the
  fences of its worker that the first one authorizes.
-/

namespace AdapterFabric

/-- The components that are compared. -/
structure Matches (c ref : AuthorityFence) : Prop where
  worker : c.worker = ref.worker
  boot : c.boot = ref.boot
  attempt : c.attempt = ref.attempt
  adapterGeneration : c.adapterGeneration = ref.adapterGeneration
  compositionGeneration : c.compositionGeneration = ref.compositionGeneration
  residencyGeneration : c.residencyGeneration = ref.residencyGeneration
  artifactGeneration : c.artifactGeneration = ref.artifactGeneration
  baseModelRevision : c.baseModelRevision = ref.baseModelRevision
  epoch : c.epoch = ref.epoch

theorem validateAuthority_authorized {c ref : AuthorityFence} :
    (validateAuthority c ref).authorized = true ↔ Matches c ref := by
  simp only [validateAuthority, AuthorityCheck.reject, Fabric.authorized_guard, ne_eq, reduceCtorEq,
    not_false_eq_true, not_not, AuthorityCheck.authorized_mk, decide_true, and_true]
  constructor
  · rintro ⟨hworker, hboot, hattempt, hgen, hcomp, hres, hart, hrev, hepoch⟩
    exact ⟨hworker, hboot, hattempt, hgen, hcomp, hres, hart, hrev, hepoch⟩
  · intro h
    exact ⟨h.worker, h.boot, h.attempt, h.adapterGeneration, h.compositionGeneration,
      h.residencyGeneration, h.artifactGeneration, h.baseModelRevision, h.epoch⟩

namespace Fabric

/-- What agrees with a current fence in all that is compared is current. -/
theorem Current.of_matches {f : Fabric} {F G : AuthorityFence} {d : AdapterDescriptor}
    {w : WorkerRecord} (h : f.Current F d w) (hadapter : G.adapter = F.adapter)
    (hG : Matches G F) : f.Current G d w where
  adapter := by rw [hadapter]; exact h.adapter
  adapter_some := by rw [hadapter]; exact h.adapter_some
  epoch := hG.epoch.trans h.epoch
  adapterGeneration := hG.adapterGeneration.trans h.adapterGeneration
  baseModelRevision := hG.baseModelRevision.trans h.baseModelRevision
  worker := by rw [hG.worker]; exact h.worker
  connected := h.connected
  complete := by rw [hG.worker, hG.boot, hG.attempt]; exact h.complete
  boot := hG.boot.trans h.boot
  attempt := by rw [hadapter, hG.attempt]; exact h.attempt
  residencyGeneration := by rw [hadapter, hG.residencyGeneration]; exact h.residencyGeneration
  compositionGeneration := by rw [hadapter, hG.compositionGeneration]; exact h.compositionGeneration
  artifactGeneration := by rw [hadapter, hG.artifactGeneration]; exact h.artifactGeneration

/-- In every state of every run, next to a record that is active with a current fence of its own
adapter. -/
theorem validateAuthority_iff {f₀ : Fabric} (hfresh : Fresh f₀) {ops : List Op}
    {F : AuthorityFence} (hbound : (run ops f₀).Holds F.adapter.str F)
    (hF : ((run ops f₀).checkFence F).authorized = true) (G : AuthorityFence)
    (ha : G.adapter = F.adapter) :
    (validateAuthority G F).authorized = true ↔
      ((run ops f₀).checkFence G).authorized = true ∧ G.worker = F.worker := by
  rw [validateAuthority_authorized]
  constructor
  · intro hmatches
    obtain ⟨d, w, hcurrent⟩ := checkFence_authorized.mp hF
    exact ⟨checkFence_authorized.mpr ⟨d, w, hcurrent.of_matches ha hmatches⟩, hmatches.worker⟩
  · rintro ⟨hG, hworker⟩
    obtain ⟨hgen, hcomp, hres, hart, hrev, hepoch, hboot⟩ := agree_of_authorized hF hG ha
    have hattempt := attempt_of_bound (run_attemptsBound hfresh ops) hbound hG ha
    exact ⟨hworker, hboot hworker, hattempt, hgen, hcomp, hres, hart, hrev, hepoch⟩

theorem validateAuthority_iff_sample :
    ((run otherOps .default).checkFence otherFence).authorized = true ∧
      ¬ (validateAuthority otherFence sampleFence).authorized = true := by
  refine ⟨by decide +kernel, fun hauth => ?_⟩
  have hiff := validateAuthority_iff (F := sampleFence) .default otherOps_holds (by decide +kernel)
    otherFence rfl
  have hworker := (hiff.mp hauth).2
  revert hworker
  decide +kernel

end Fabric

end AdapterFabric
