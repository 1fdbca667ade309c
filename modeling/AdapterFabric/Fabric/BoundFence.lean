import AdapterFabric.Fabric.Exclusive

/-!
# AdapterFabric.Fabric.BoundFence

Which fences `check_fence` authorizes next to a bound one.

* `run_attemptsBound`: the attempt table holds the attempt of every active fence.
* `bound_fence_pins`: an authorized fence is the bound one exactly when it names the same
  composition, worker, device and node; the worker is only asked to be connected under the boot of
  the fence, and the others are compared with nothing.
-/

namespace AdapterFabric

namespace Fabric

/-- The attempt of every active fence is the current one of the adapter it is bound under. -/
def AttemptsBound (f : Fabric) : Prop :=
  ∀ (k : Bytes) (ar : AdapterAuthorityRecord), f.authority[k]? = some ar → ar.active = true →
    f.currentAttempt[k]? = some ar.fence.attempt

/-- A bind writes the record and the attempt under one key, whatever adapter the fence names. -/
theorem bindAuthority_attemptsBound {f : Fabric} {id : AdapterId} {F : AuthorityFence}
    (h : f.AttemptsBound) : (f.bindAuthority id F).2.AttemptsBound := by
  rcases bindAuthority_cases f id F with he | ⟨ar₀, _, _, _, he⟩
  · rwa [he]
  rw [he]
  intro k ar har ha
  show (f.currentAttempt.insert id.str F.attempt)[k]? = some ar.fence.attempt
  have har : (f.authority.insert id.str (granted ar₀ F))[k]? = some ar := har
  rw [Table.get_insert] at har ⊢
  by_cases hk : id.str = k
  · rw [if_pos hk] at har ⊢
    obtain rfl := Option.some.inj har
    rfl
  · rw [if_neg hk] at har ⊢
    exact h k ar har ha

theorem attemptsBound_step {f : Fabric} (op : Op) (h : f.AttemptsBound) :
    (op.apply f).AttemptsBound := by
  by_cases hkeyed : op.Keyed
  · intro k ar har ha
    rcases active_step hkeyed har ha with hg | hs
    · exact hg.attempt
    · obtain ⟨ar₀, h₀, ha₀, _, hF⟩ := hs.before
      rw [hs.attempt, ← hF]
      exact h k ar₀ h₀ ha₀
  · cases op with
    | bindAuthority id fence => exact bindAuthority_attemptsBound h
    | _ => exact absurd trivial hkeyed

theorem run_attemptsBound {f₀ : Fabric} (hfresh : Fresh f₀) (ops : List Op) :
    (run ops f₀).AttemptsBound := by
  refine Run.exec_preserves (P := AttemptsBound) (fun op _ _ => attemptsBound_step op) ?_
  intro k ar har
  rw [hfresh.no_record] at har
  cases har

theorem checkFence_unread (f : Fabric) (G : AuthorityFence) (composition : CompositionId)
    (device : DeviceId) (node : NodeId) :
    f.checkFence { G with composition, device, node } = f.checkFence G := rfl

/-- Two authorized fences of one adapter differ at most in composition, worker, boot, attempt,
device and node. -/
theorem agree_of_authorized {f : Fabric} {F G : AuthorityFence}
    (hF : (f.checkFence F).authorized = true) (hG : (f.checkFence G).authorized = true)
    (ha : G.adapter = F.adapter) :
    G.adapterGeneration = F.adapterGeneration ∧
      G.compositionGeneration = F.compositionGeneration ∧
      G.residencyGeneration = F.residencyGeneration ∧
      G.artifactGeneration = F.artifactGeneration ∧
      G.baseModelRevision = F.baseModelRevision ∧ G.epoch = F.epoch ∧
      (G.worker = F.worker → G.boot = F.boot) := by
  obtain ⟨d, w, h⟩ := checkFence_authorized.mp hF
  obtain ⟨d', w', h'⟩ := checkFence_authorized.mp hG
  obtain rfl : d = d' := by
    have := h'.adapter
    rw [ha, h.adapter] at this
    exact Option.some.inj this
  refine ⟨h'.adapterGeneration.trans h.adapterGeneration.symm, ?_, ?_, ?_,
    h'.baseModelRevision.trans h.baseModelRevision.symm, h'.epoch.trans h.epoch.symm, ?_⟩
  · rw [h'.compositionGeneration, h.compositionGeneration, ha]
  · rw [h'.residencyGeneration, h.residencyGeneration, ha]
  · rw [h'.artifactGeneration, h.artifactGeneration, ha]
  · intro hw
    have := h'.worker
    rw [hw, h.worker] at this
    rw [h'.boot, h.boot, Option.some.inj this]

/-- Some other device. -/
def elsewhere (device : DeviceId) : DeviceId :=
  if device = ⟨.ofBytes [1]⟩ then ⟨.ofBytes [2]⟩ else ⟨.ofBytes [1]⟩

theorem elsewhere_ne (device : DeviceId) : elsewhere device ≠ device := by
  unfold elsewhere
  by_cases h : device = ⟨.ofBytes [1]⟩
  · rw [if_pos h, h]
    decide +kernel
  · rw [if_neg h]
    exact fun e => h e.symm

theorem exists_other_authorized {f : Fabric} {G : AuthorityFence}
    (hG : (f.checkFence G).authorized = true) (F : AuthorityFence) :
    ∃ G' : AuthorityFence, G'.adapter = G.adapter ∧ (f.checkFence G').authorized = true ∧
      G' ≠ F := by
  refine ⟨{ G with device := elsewhere F.device }, rfl, ?_, ?_⟩
  · rw [checkFence_unread f G G.composition (elsewhere F.device) G.node]
    exact hG
  · intro h
    exact elsewhere_ne F.device (congrArg AuthorityFence.device h)

attribute [ext] AuthorityFence

/-- A fence bound under its own adapter has the attempt of every authorized fence of the adapter. -/
theorem attempt_of_bound {f : Fabric} (hattempts : f.AttemptsBound) {F G : AuthorityFence}
    (hbound : f.Holds F.adapter.str F) (hG : (f.checkFence G).authorized = true)
    (ha : G.adapter = F.adapter) : G.attempt = F.attempt := by
  obtain ⟨ar, har, hactive, hfence⟩ := hbound
  obtain ⟨d, w, h⟩ := checkFence_authorized.mp hG
  have hcurrent := hattempts _ ar har hactive
  rw [hfence, ← ha] at hcurrent
  exact (h.attempt _ hcurrent).symm

/-- In every state, an authorized fence for the adapter of an active record whose fence is current
is the bound one exactly when it names the same composition, worker, device and node; all of them
are at once only where there is none. -/
theorem bound_fence_pins {f₀ : Fabric} (hfresh : Fresh f₀) {ops : List Op} {a : AdapterId}
    {F : AuthorityFence} (hbound : (run ops f₀).Holds a.str F)
    (hF : ((run ops f₀).checkFence F).authorized = true) :
    (∀ G : AuthorityFence, G.adapter = a → ((run ops f₀).checkFence G).authorized = true →
      (G = F ↔ F.adapter = a ∧ G.composition = F.composition ∧ G.worker = F.worker ∧
        G.device = F.device ∧ G.node = F.node)) ∧
    ((∀ G : AuthorityFence, G.adapter = a → ((run ops f₀).checkFence G).authorized = true →
      G = F) ↔
      ∀ G : AuthorityFence, G.adapter = a → ¬ ((run ops f₀).checkFence G).authorized = true) := by
  constructor
  · intro G ha hG
    constructor
    · rintro rfl
      exact ⟨ha, rfl, rfl, rfl, rfl⟩
    · rintro ⟨rfl, hcomposition, hworker, hdevice, hnode⟩
      obtain ⟨hgen, hcomp, hres, hart, hrev, hepoch, hboot⟩ := agree_of_authorized hF hG ha
      have hattempt := attempt_of_bound (run_attemptsBound hfresh ops) hbound hG ha
      exact AuthorityFence.ext ha hcomposition hgen hcomp hres hart hrev hepoch hworker
        (hboot hworker) hattempt hdevice hnode
  · constructor
    · rintro hall G rfl hG
      obtain ⟨G', ha, hG', hne⟩ := exists_other_authorized hG F
      exact hne (hall G' ha hG')
    · intro hnone G ha hG
      exact absurd hG (hnone G ha)

/-- A second worker, connected under its own boot. -/
def otherWorker : WorkerRecord where
  id := ⟨.ofBytes [7]⟩
  boot := ⟨.ofBytes [8]⟩
  connected := true

def otherOps : List Op := sampleOps ++ [.registerWorker otherWorker]

/-- The fence of the sample run, by the other worker. -/
def otherFence : AuthorityFence :=
  { sampleFence with worker := otherWorker.id, boot := otherWorker.boot }

theorem otherOps_holds : (run otherOps .default).Holds sampleAdapter.id.str sampleFence :=
  holds_of_lookup (by decide +kernel)

/-- The bound fence on another worker is one of the authorized fences that are not the bound one. -/
theorem bound_fence_pins_sample :
    otherFence ≠ sampleFence ∧ ∃ G : AuthorityFence, G.adapter = sampleAdapter.id ∧
      ((run otherOps .default).checkFence G).authorized = true ∧ G ≠ sampleFence := by
  have hauth : ((run otherOps .default).checkFence otherFence).authorized = true := by
    decide +kernel
  have hpins := bound_fence_pins .default otherOps_holds (by decide +kernel)
  have hne : otherFence ≠ sampleFence := by
    rw [Ne, hpins.1 otherFence rfl hauth]
    rintro ⟨-, -, hworker, -⟩
    revert hworker
    decide +kernel
  exact ⟨hne, otherFence, rfl, hauth, hne⟩

/-- Next to the bound fence of the sample run, fences with another composition, device and node, or
with another worker and its boot, are authorized. -/
theorem bound_fence_counterexample :
    (run otherOps .default).Holds sampleAdapter.id.str sampleFence ∧
      ((run otherOps .default).checkFence sampleFence).authorized = true ∧
      (∃ G : AuthorityFence, G.adapter = sampleAdapter.id ∧
        G.composition ≠ sampleFence.composition ∧ G.device ≠ sampleFence.device ∧
        G.node ≠ sampleFence.node ∧ ((run otherOps .default).checkFence G).authorized = true) ∧
      ∃ G : AuthorityFence, G.adapter = sampleAdapter.id ∧ G.worker ≠ sampleFence.worker ∧
        G.boot ≠ sampleFence.boot ∧ ((run otherOps .default).checkFence G).authorized = true := by
  refine ⟨otherOps_holds, by decide +kernel, ?_, ?_⟩
  · refine ⟨{ sampleFence with
      composition := ⟨.ofBytes [9]⟩, device := ⟨.ofBytes [10]⟩, node := ⟨.ofBytes [11]⟩ }, rfl, ?_⟩
    decide +kernel
  · exact ⟨otherFence, rfl, by decide +kernel, by decide +kernel, by decide +kernel⟩

end Fabric

end AdapterFabric
