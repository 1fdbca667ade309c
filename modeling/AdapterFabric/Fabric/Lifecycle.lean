import AdapterFabric.Fabric.Step

/-!
# AdapterFabric.Fabric.Lifecycle

The lifecycles of authority records across one operation (`fabric.cpp`, `lifecycle.cpp`).

Nothing that writes a lifecycle asks `lifecycle_can_transition`. The records of a run are in one of
four states only (`Usual`), and from those a revocation is always allowed, so that leaves a bind and
the writes of `ready`.

* `lifecycle_cases`: what an operation can do to the lifecycle of a record that exists.
* `obeysList_iff`: it obeys the allow-list exactly when a bind finds its record ready or active, and
  a write of `ready` finds it loading or ready.
-/

namespace AdapterFabric

namespace Fabric

namespace Op

/-- The operation writes a fresh record under `k`. -/
def Creates (k : Bytes) : Op → Prop
  | createInstance adapter _ _ _ _ _ => adapter.str = k
  | _ => False

/-- `ready` is all that is written through `authority_record`. -/
def SetsReady : Op → Prop
  | setLifecycle _ s => s = .ready
  | _ => True

/-- The operation is a method of the Fabric: records are handed out read-only. -/
def IsMethod : Op → Prop
  | setLifecycle _ _ => False
  | _ => True

theorem IsMethod.setsReady {op : Op} (h : op.IsMethod) : op.SetsReady := by
  cases op with
  | setLifecycle id s => cases h
  | _ => trivial

/-- The operation changes the lifecycle of a record that exists as the allow-list has it. -/
def ObeysList (f : Fabric) (op : Op) : Prop :=
  ∀ (k : Bytes) (ar ar' : AdapterAuthorityRecord), ¬ op.Creates k → f.authority[k]? = some ar →
    (op.apply f).authority[k]? = some ar' → ar.lifecycle ≠ ar'.lifecycle →
    lifecycleCanTransition ar.lifecycle ar'.lifecycle = true

/-- A bind that goes through finds its record ready or active, and a write of `ready` finds its
record loading or ready. -/
def FindsReady (f : Fabric) : Op → Prop
  | bindAuthority id fence =>
    (f.checkFence fence).authorized = true →
      (∀ held, f.activeFence = some held → held.adapter = id) →
      ∀ ar, f.authorityRecord id = some ar → ar.lifecycle = .ready ∨ ar.lifecycle = .active
  | setLifecycle id _ =>
    ∀ ar, f.authorityRecord id = some ar → ar.lifecycle = .loading ∨ ar.lifecycle = .ready
  | _ => True

instance (f : Fabric) (op : Op) : Decidable (op.FindsReady f) :=
  match op with
  | bindAuthority id fence => inferInstanceAs (Decidable ((f.checkFence fence).authorized = true →
      (∀ held ∈ f.activeFence, held.adapter = id) →
        ∀ ar ∈ f.authorityRecord id, ar.lifecycle = .ready ∨ ar.lifecycle = .active))
  | setLifecycle id _ => inferInstanceAs (Decidable
      (∀ ar ∈ f.authorityRecord id, ar.lifecycle = .loading ∨ ar.lifecycle = .ready))
  | registerAdapter _ | publishComposition _ _ _ | registerWorker _ | createInstance _ _ _ _ _ _
  | evict _ | pin _ | unpin _ | onWorkerDown _ | onWorkerRestart _ _ | invalidate _ _ _
  | advanceEpoch | recover _ | markReady _ _ | reserveCapacity _ _ _ | releaseCapacity _ _ _ =>
    .isTrue trivial

end Op

/-- The states that the records of a run are in. -/
def Usual (s : LifecycleState) : Prop :=
  s = .loading ∨ s = .ready ∨ s = .active ∨ s = .invalidated

def UsualStates (f : Fabric) : Prop :=
  ∀ (k : Bytes) (ar : AdapterAuthorityRecord), f.authority[k]? = some ar → Usual ar.lifecycle

section Cases

variable {f : Fabric} {op : Op} {k : Bytes} {ar' : AdapterAuthorityRecord}

/-- A record is fresh and loading, or it was there before and its lifecycle is kept, invalidated,
made active by a bind or written through the record. -/
theorem lifecycle_cases (h : (op.apply f).authority[k]? = some ar') :
    (op.Creates k ∧ ar'.lifecycle = .loading) ∨
    ∃ ar, f.authority[k]? = some ar ∧
      (ar'.lifecycle = ar.lifecycle ∨ ar'.lifecycle = .invalidated ∨
        (∃ id fence, op = .bindAuthority id fence ∧ id.str = k ∧
          (f.checkFence fence).authorized = true ∧
          (∀ held, f.activeFence = some held → held.adapter = id) ∧ ar'.lifecycle = .active) ∨
        ∃ id s, op = .setLifecycle id s ∧ id.str = k ∧ ar'.lifecycle = s) := by
  rcases record_cases h with ⟨adapter, _, _, _, _, _, _, rfl, hk, _, rfl⟩ | ⟨ar, har, hcases⟩
  · exact .inl ⟨hk, rfl⟩
  · refine .inr ⟨ar, har, ?_⟩
    rcases hcases with ⟨id, fence, rfl, hk, hauth, hfree, rfl⟩ | rfl | rfl | ⟨id, s, rfl, hk, rfl⟩
    · exact .inr (.inr (.inl ⟨id, fence, rfl, hk, hauth, hfree, rfl⟩))
    · exact .inl rfl
    · exact .inr (.inl rfl)
    · exact .inr (.inr (.inr ⟨id, s, rfl, hk, rfl⟩))

end Cases

/-! ## From usual states -/

theorem usual_transition {s : LifecycleState} (h : Usual s) (hne : s ≠ .invalidated) :
    lifecycleCanTransition s .invalidated = true := by
  rcases h with rfl | rfl | rfl | rfl
  · decide
  · decide
  · decide
  · exact absurd rfl hne

theorem usual_active_iff {s : LifecycleState} (h : Usual s) :
    (s ≠ .active → lifecycleCanTransition s .active = true) ↔ s = .ready ∨ s = .active := by
  rcases h with rfl | rfl | rfl | rfl <;> decide

theorem usual_ready_iff {s : LifecycleState} (h : Usual s) :
    (s ≠ .ready → lifecycleCanTransition s .ready = true) ↔ s = .loading ∨ s = .ready := by
  rcases h with rfl | rfl | rfl | rfl <;> decide

section Usual

variable {f : Fabric} {op : Op}

theorem Fresh.usualStates (h : Fresh f) : UsualStates f := by
  intro k ar har
  rw [h.no_record] at har
  cases har

theorem UsualStates.apply (h : UsualStates f) (hop : op.SetsReady) : UsualStates (op.apply f) := by
  intro k ar' har'
  rcases lifecycle_cases har' with ⟨_, hl⟩ | ⟨ar, har, hl | hl | ⟨_, _, _, _, _, _, hl⟩ |
    ⟨id, s, rfl, _, hl⟩⟩
  · exact .inl hl
  · rw [hl]
    exact h k ar har
  · exact .inr (.inr (.inr hl))
  · exact .inr (.inr (.inl hl))
  · obtain rfl : s = .ready := hop
    exact .inr (.inl hl)

theorem bindAuthority_grants {id : AdapterId} {fence : AuthorityFence} {ar : AdapterAuthorityRecord}
    (hauth : (f.checkFence fence).authorized = true)
    (hfree : ∀ held, f.activeFence = some held → held.adapter = id)
    (har : f.authorityRecord id = some ar) :
    (f.bindAuthority id fence).2.authority[id.str]? = some (granted ar fence) := by
  have hnone : ¬ ∃ held ∈ f.activeFence, held.adapter ≠ id := fun ⟨held, hheld, hne⟩ =>
    hne (hfree held hheld)
  have har : f.authority[id.str]? = some ar := har
  simp only [bindAuthority, hauth, not_true, if_false, hnone, har]
  rw [Table.get_insert, if_pos rfl]

/-- From usual states an operation obeys the allow-list exactly when it finds its record ready. -/
theorem obeysList_iff (h : UsualStates f) (hop : op.SetsReady) :
    op.ObeysList f ↔ op.FindsReady f := by
  constructor
  · intro hobeys
    cases op with
    | bindAuthority id fence =>
      intro hauth hfree ar har
      exact (usual_active_iff (h _ _ har)).mp
        (hobeys id.str ar _ not_false har (bindAuthority_grants hauth hfree har))
    | setLifecycle id s =>
      intro ar har
      obtain rfl : s = .ready := hop
      refine (usual_ready_iff (h _ _ har)).mp
        (hobeys id.str ar { ar with lifecycle := .ready } not_false har ?_)
      show (f.authority.modify id.str _)[id.str]? = _
      rw [Table.get_modify, if_pos rfl, show f.authority[id.str]? = some ar from har]
      rfl
    | _ => trivial
  · intro hfinds k ar₀ ar' hkey har₀ har' hne
    rcases lifecycle_cases har' with ⟨hk, _⟩ | ⟨ar, har, hcases⟩
    · exact absurd hk hkey
    obtain rfl : ar₀ = ar := Option.some.inj (har₀.symm.trans har)
    have husual := h k ar₀ har
    rcases hcases with hl | hl | ⟨id, fence, rfl, rfl, hauth, hfree, hl⟩ | ⟨id, s, rfl, rfl, hl⟩
    · exact absurd hl.symm hne
    · rw [hl] at hne ⊢
      exact usual_transition husual hne
    · rw [hl] at hne ⊢
      exact (usual_active_iff husual).mpr (hfinds hauth hfree ar₀ har) hne
    · obtain rfl : s = .ready := hop
      rw [hl] at hne ⊢
      exact (usual_ready_iff husual).mpr (hfinds ar₀ har) hne

end Usual

end Fabric

end AdapterFabric
