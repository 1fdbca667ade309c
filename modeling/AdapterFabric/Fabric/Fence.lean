import AdapterFabric.Fabric.State

/-!
# AdapterFabric.Fabric.Fence

When `check_fence` authorizes a fence, and when `bind_authority` binds it.

* `checkFence_authorized`: exactly when the fence is `Current`.
* `bindAuthority_cases`: a bind leaves the fabric alone or grants the fence.
* `Binds.authorized`, `Binds.attempt`: what a successful bind found and left behind.
-/

namespace AdapterFabric

namespace Fabric

/-- The generations a fence for `id` must carry: those of its authority record, or one. -/
def expectedResidencyGeneration (f : Fabric) (id : AdapterId) : ResidencyGeneration :=
  ((f.authorityRecord id).map (·.fence.residencyGeneration)).getD ⟨1⟩

def expectedCompositionGeneration (f : Fabric) (id : AdapterId) : CompositionGeneration :=
  ((f.authorityRecord id).map (·.fence.compositionGeneration)).getD ⟨1⟩

def expectedArtifactGeneration (f : Fabric) (id : AdapterId) : ArtifactGeneration :=
  ((f.authorityRecord id).map (·.fence.artifactGeneration)).getD ⟨1⟩

/-- Every factor of `F` agrees with the fabric, in which `d` and `w` are the registered adapter and
worker that `F` names. -/
structure Current (f : Fabric) (F : AuthorityFence) (d : AdapterDescriptor) (w : WorkerRecord) :
    Prop where
  adapter : f.adapter F.adapter = some d
  adapter_some : ¬ F.adapter.isNil = true
  epoch : F.epoch = f.epoch
  adapterGeneration : F.adapterGeneration = d.generation
  baseModelRevision : F.baseModelRevision = d.baseModelRevision
  worker : f.worker F.worker = some w
  connected : w.connected = true
  complete : ¬ (F.worker.isNil = true ∨ F.boot.isNil = true ∨ F.attempt.isNil = true)
  boot : F.boot = w.boot
  attempt : ∀ a, f.currentAttempt[F.adapter.str]? = some a → a = F.attempt
  residencyGeneration : F.residencyGeneration = f.expectedResidencyGeneration F.adapter
  compositionGeneration : F.compositionGeneration = f.expectedCompositionGeneration F.adapter
  artifactGeneration : F.artifactGeneration = f.expectedArtifactGeneration F.adapter

/-- A current fence stays current where its worker is connected under its boot, no other attempt has
appeared, and the fence of its authority record is still the same. -/
theorem Current.congr {f g : Fabric} {F : AuthorityFence} {d : AdapterDescriptor}
    {w w' : WorkerRecord} (h : f.Current F d w) (hadapters : g.adapters = f.adapters)
    (hepoch : g.epoch = f.epoch) (hworker : g.worker F.worker = some w')
    (hconnected : w'.connected = true) (hboot : F.boot = w'.boot)
    (hattempt : ∀ a, g.currentAttempt[F.adapter.str]? = some a →
      f.currentAttempt[F.adapter.str]? = some a)
    (hfence : (g.authorityRecord F.adapter).map (·.fence) =
      (f.authorityRecord F.adapter).map (·.fence)) : g.Current F d w' := by
  have hgen {β : Type} (read : AuthorityFence → β) (one : β) :
      ((g.authorityRecord F.adapter).map fun ar => read ar.fence).getD one =
        ((f.authorityRecord F.adapter).map fun ar => read ar.fence).getD one := by
    have := congrArg (Option.map read) hfence
    simp only [Option.map_map] at this
    exact congrArg (Option.getD · one) this
  exact {
    adapter := by rw [Fabric.adapter, hadapters]; exact h.adapter
    adapter_some := h.adapter_some
    epoch := by rw [hepoch]; exact h.epoch
    adapterGeneration := h.adapterGeneration
    baseModelRevision := h.baseModelRevision
    worker := hworker
    connected := hconnected
    complete := h.complete
    boot := hboot
    attempt := fun a ha => h.attempt a (hattempt a ha)
    residencyGeneration := h.residencyGeneration.trans (hgen (·.residencyGeneration) ⟨1⟩).symm
    compositionGeneration := h.compositionGeneration.trans (hgen (·.compositionGeneration) ⟨1⟩).symm
    artifactGeneration := h.artifactGeneration.trans (hgen (·.artifactGeneration) ⟨1⟩).symm }

/-- A guard in front of a check: it must not fire. -/
theorem authorized_guard {q : Prop} [Decidable q] {v : AuthorityVerdict} {reason : Bytes}
    {c : AuthorityCheck} (hv : v ≠ .authorized) :
    (if q then AuthorityCheck.mk v reason else c).authorized = true ↔
      ¬ q ∧ c.authorized = true := by
  by_cases hq : q
  · rw [if_pos hq]
    simp [hq, hv]
  · rw [if_neg hq]
    simp [hq]

theorem checkFence_authorized {f : Fabric} {F : AuthorityFence} :
    (f.checkFence F).authorized = true ↔ ∃ d w, f.Current F d w := by
  unfold checkFence
  cases hd : f.adapter F.adapter with
  | none =>
    constructor
    · intro h; cases h
    · rintro ⟨d, w, hc⟩
      rw [hc.adapter] at hd
      cases hd
  | some d =>
    cases hw : f.worker F.worker with
    | none =>
      constructor
      · intro h
        simp only [authorized_guard, ne_eq, reduceCtorEq, not_false_eq_true,
          AuthorityCheck.authorized_mk, decide_false, Bool.false_eq_true, and_false] at h
      · rintro ⟨d', w, hc⟩
        rw [hc.worker] at hw
        cases hw
    | some w =>
      simp only [authorized_guard, ne_eq, reduceCtorEq, not_false_eq_true, not_not,
        AuthorityCheck.authorized_mk, decide_true, and_true]
      constructor
      · rintro ⟨hnil, hepoch, hgen, hrev, hconn, hcomplete, hboot, hattempt, hres, hcomp, hart⟩
        refine ⟨d, w, hd, hnil, hepoch, hgen, hrev, hw, hconn, hcomplete, hboot, ?_, hres, hcomp,
          hart⟩
        intro a ha
        exact not_not.mp fun hne => hattempt ⟨a, ha, hne⟩
      · rintro ⟨d', w', hc⟩
        obtain rfl : d = d' := Option.some.inj (hd.symm.trans hc.adapter)
        obtain rfl : w = w' := Option.some.inj (hw.symm.trans hc.worker)
        refine ⟨hc.adapter_some, hc.epoch, hc.adapterGeneration, hc.baseModelRevision,
          hc.connected, hc.complete, hc.boot, ?_, hc.residencyGeneration, hc.compositionGeneration,
          hc.artifactGeneration⟩
        rintro ⟨a, ha, hne⟩
        exact hne (hc.attempt a ha)

/-- A bind either changes nothing or grants an authorized fence while no other adapter holds the
exclusive slot. -/
theorem bindAuthority_cases (f : Fabric) (id : AdapterId) (F : AuthorityFence) :
    (f.bindAuthority id F).2 = f ∨
    ∃ ar, (f.checkFence F).authorized = true ∧
      (∀ held, f.activeFence = some held → held.adapter = id) ∧
      f.authority[id.str]? = some ar ∧
      f.bindAuthority id F = (.ok (f.checkFence F), { f with
        authority := f.authority.insert id.str (granted ar F)
        currentAttempt := f.currentAttempt.insert id.str F.attempt
        activeFence := some F }) := by
  unfold bindAuthority
  by_cases hauth : (f.checkFence F).authorized = true
  · rw [if_neg (not_not.mpr hauth)]
    by_cases hconflict : ∃ held ∈ f.activeFence, held.adapter ≠ id
    · rw [if_pos hconflict]
      exact .inl rfl
    · rw [if_neg hconflict]
      cases har : f.authority[id.str]? with
      | none => exact .inl rfl
      | some ar =>
        refine .inr ⟨ar, hauth, ?_, rfl, rfl⟩
        intro held hheld
        exact not_not.mp fun hne => hconflict ⟨held, hheld, hne⟩
  · rw [if_pos hauth]
    exact .inl rfl

theorem bindAuthority_ok {f : Fabric} {id : AdapterId} {F : AuthorityFence} {check : AuthorityCheck}
    (h : (f.bindAuthority id F).1 = .ok check) : f.checkFence F = check := by
  unfold bindAuthority at h
  dsimp only at h
  split at h
  · exact Except.ok.inj h
  · split at h
    · cases h
    · split at h
      · cases h
      · exact Except.ok.inj h

/-- The bind of `F` under `id` is a success. -/
def Binds (f : Fabric) (id : AdapterId) (F : AuthorityFence) : Prop :=
  ∃ check, (f.bindAuthority id F).1 = .ok check ∧ check.authorized = true

theorem Binds.authorized {f : Fabric} {id : AdapterId} {F : AuthorityFence} (h : f.Binds id F) :
    (f.checkFence F).authorized = true := by
  obtain ⟨check, hok, hauth⟩ := h
  rwa [bindAuthority_ok hok]

theorem Binds.attempt {f : Fabric} {id : AdapterId} {F : AuthorityFence} (h : f.Binds id F) :
    (f.bindAuthority id F).2.currentAttempt[id.str]? = some F.attempt := by
  have hauth := h.authorized
  obtain ⟨check, hok, _⟩ := h
  unfold bindAuthority at hok ⊢
  rw [if_neg (not_not.mpr hauth)] at hok ⊢
  by_cases hconflict : ∃ held ∈ f.activeFence, held.adapter ≠ id
  · rw [if_pos hconflict] at hok
    cases hok
  · rw [if_neg hconflict] at hok ⊢
    cases har : f.authority[id.str]? with
    | none => rw [har] at hok; cases hok
    | some ar =>
      dsimp only
      rw [Table.get_insert, if_pos rfl]

end Fabric

end AdapterFabric
