import AdapterFabric.Fabric.Exclusive

/-!
# AdapterFabric.Fabric.Revocation

What `invalidate` takes away, and what it leaves.

* `invalidate_holds`: the invalidated adapter holds no authority afterwards.
* `checkFence_invalidate`: the verdict on every fence stays what it was, since `check_fence` reads
  neither the flags nor the lifecycle that `invalidate` writes.
* `invalidate_not_effective`: so a fence authorized before is not revoked.
-/

namespace AdapterFabric

namespace Fabric

/-- The operations after which fences for `a` may be authorized anew. -/
def Op.Renews (a : AdapterId) : Op → Prop
  | .registerAdapter d => d.id = a
  | .createInstance id _ _ _ _ _ => id = a
  | _ => False

/-- From `f` on, until its adapter is renewed, `F` is neither authorized nor bound. -/
def Revoked (f : Fabric) (F : AuthorityFence) : Prop :=
  ∀ ops : List Op, (∀ op ∈ ops, ¬ op.Renews F.adapter) →
    ((run ops f).checkFence F).authorized = false ∧
    ∀ check, ((run ops f).bindAuthority F.adapter F).1 = .ok check → check.authorized = false

theorem invalidate_holds (f : Fabric) (id : AdapterId) (trigger : InvalidationTrigger)
    (reason : Bytes) (F : AuthorityFence) :
    ¬ (f.invalidate id trigger reason).2.Holds id.str F := by
  rintro ⟨ar, har, ha, _⟩
  have har : (f.authority.modify id.str revoked)[id.str]? = some ar := har
  rw [Table.get_modify, if_pos rfl] at har
  obtain ⟨ar₀, _, rfl⟩ := Option.map_eq_some_iff.mp har
  cases ha

theorem invalidate_fences (f : Fabric) (id : AdapterId) (trigger : InvalidationTrigger)
    (reason : Bytes) (id' : AdapterId) :
    ((f.invalidate id trigger reason).2.authorityRecord id').map (·.fence) =
      (f.authorityRecord id').map (·.fence) := by
  show ((f.authority.modify id.str revoked)[id'.str]?).map (·.fence) = _
  rw [Table.get_modify]
  split
  · rw [Option.map_map]; rfl
  · rfl

theorem checkFence_invalidate (f : Fabric) (id : AdapterId) (trigger : InvalidationTrigger)
    (reason : Bytes) (F : AuthorityFence) :
    ((f.invalidate id trigger reason).2.checkFence F).authorized = (f.checkFence F).authorized := by
  have hfences := invalidate_fences f id trigger reason F.adapter
  apply Bool.eq_iff_iff.mpr
  rw [checkFence_authorized, checkFence_authorized]
  constructor
  · rintro ⟨d, w, h⟩
    exact ⟨d, w, h.congr rfl rfl h.worker h.connected h.boot (fun _ ha => ha) hfences.symm⟩
  · rintro ⟨d, w, h⟩
    exact ⟨d, w, h.congr rfl rfl h.worker h.connected h.boot (fun _ ha => ha) hfences⟩

theorem not_revoked_of_authorized {f : Fabric} {F : AuthorityFence}
    (h : (f.checkFence F).authorized = true) : ¬ f.Revoked F := by
  intro hr
  have := (hr [] (by simp)).1
  rw [show run [] f = f from rfl, h] at this
  cases this

/-- No authorized fence is revoked by invalidating its adapter. -/
theorem invalidate_not_effective {f : Fabric} {F : AuthorityFence}
    (h : (f.checkFence F).authorized = true) (trigger : InvalidationTrigger) (reason : Bytes) :
    ¬ (f.invalidate F.adapter trigger reason).2.Revoked F :=
  not_revoked_of_authorized (by rwa [checkFence_invalidate])

theorem invalidate_not_effective_sample :
    ¬ ((run sampleOps .default).invalidate sampleFence.adapter .manual []).2.Revoked sampleFence :=
  invalidate_not_effective (by decide +kernel) .manual []

/-- After the invalidation of a bound adapter the same fence is authorized and binds again. -/
theorem invalidate_counterexample :
    ((run sampleOps .default).checkFence sampleFence).authorized = true ∧
    ¬ ((run sampleOps .default).invalidate sampleFence.adapter .manual []).2.Revoked sampleFence ∧
    (((run sampleOps .default).invalidate sampleFence.adapter .manual []).2.bindAuthority
      sampleFence.adapter sampleFence).1 = .ok ⟨.authorized, ascii "fence current"⟩ := by
  refine ⟨by decide +kernel, not_revoked_of_authorized (by decide +kernel), by decide +kernel⟩

end Fabric

end AdapterFabric
