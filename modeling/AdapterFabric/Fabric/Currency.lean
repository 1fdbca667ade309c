import AdapterFabric.Fabric.Exclusive

/-!
# AdapterFabric.Fabric.Currency

The reference values of a fence: the epoch and the registered descriptors.

* `stale_forever`: without recovery they only move forward, so a fence that falls behind stays
  behind.
* `active_current_iff`: a run keeps every active fence current exactly when no step of it moves a
  reference value that an active fence depends on.
-/

namespace AdapterFabric

namespace Fabric

/-! ## Reference values only move forward -/

/-- An operation other than registration, an epoch roll and recovery keeps the reference values. -/
theorem registry_frame {op : Op} (hreg : ∀ d, op ≠ .registerAdapter d) (hepoch : op ≠ .advanceEpoch)
    (hrec : op.isRecover = false) (f : Fabric) :
    (op.apply f).epoch = f.epoch ∧ (op.apply f).nextAdapterGen = f.nextAdapterGen ∧
      (op.apply f).adapters = f.adapters := by
  by_cases hquiet : op.isQuiet = true
  · have hq := Op.quiet_apply hquiet f
    exact ⟨hq.epoch, hq.nextAdapterGen, hq.adapters⟩
  cases op with
  | registerAdapter d => exact absurd rfl (hreg d)
  | advanceEpoch => exact absurd rfl hepoch
  | recover s => cases hrec
  | createInstance adapter worker boot device bytes rng =>
    obtain ⟨_, _, he⟩ := createInstance_frame f adapter worker boot device bytes rng
    simp only [Op.apply, he, and_self]
  | bindAuthority id fence =>
    obtain ⟨_, _, _, he⟩ := bindAuthority_frame f id fence
    simp only [Op.apply, he, and_self]
  | registerWorker rec => exact ⟨rfl, rfl, rfl⟩
  | invalidate id trigger reason => exact ⟨rfl, rfl, rfl⟩
  | onWorkerDown id => exact ⟨rfl, rfl, rfl⟩
  | onWorkerRestart id boot => exact ⟨rfl, rfl, rfl⟩
  | setLifecycle id s => exact ⟨rfl, rfl, rfl⟩
  | _ => exact absurd rfl hquiet

/-- The next generation is not below any that is registered. -/
def GenerationsBounded (f : Fabric) : Prop :=
  ∀ (k : Bytes) (d : AdapterDescriptor), f.adapters[k]? = some d →
    d.generation.value.toNat ≤ f.nextAdapterGen.value.toNat

/-- `g` has the epoch and every adapter of `f`, none of them at a smaller value. -/
structure Later (f g : Fabric) : Prop where
  epoch : f.epoch.value.toNat ≤ g.epoch.value.toNat
  adapters : ∀ (k : Bytes) (d : AdapterDescriptor), f.adapters[k]? = some d →
    ∃ d', g.adapters[k]? = some d' ∧ d.generation.value.toNat ≤ d'.generation.value.toNat

theorem Later.refl (f : Fabric) : Later f f :=
  ⟨Nat.le_refl _, fun _ d hd => ⟨d, hd, Nat.le_refl _⟩⟩

theorem Later.trans {f g h : Fabric} (hfg : Later f g) (hgh : Later g h) : Later f h := by
  refine ⟨Nat.le_trans hfg.epoch hgh.epoch, fun k d hd => ?_⟩
  obtain ⟨d', hd', hle⟩ := hfg.adapters k d hd
  obtain ⟨d'', hd'', hle'⟩ := hgh.adapters k d' hd'
  exact ⟨d'', hd'', Nat.le_trans hle hle'⟩

theorem forward_step {op : Op} (hop : op.isRecover = false) {f : Fabric}
    (h : f.GenerationsBounded) : (op.apply f).GenerationsBounded ∧ Later f (op.apply f) := by
  by_cases hreg : ∃ d, op = .registerAdapter d
  · obtain ⟨d, rfl⟩ := hreg
    rcases registerAdapter_cases f d with ⟨_, e, he⟩ | ⟨_, he⟩
    · simp only [Op.apply, he]
      exact ⟨h, .refl f⟩
    · have hnext := f.nextAdapterGen.le_next
      simp only [Op.apply, he]
      constructor
      · intro k d' hd'
        rcases Table.of_insert hd' with ⟨_, rfl⟩ | hd'
        · exact hnext
        · exact Nat.le_trans (h k d' hd') hnext
      · refine ⟨Nat.le_refl _, fun k d' hd' => ?_⟩
        show ∃ d'', (f.adapters.insert d.id.str { d with generation := f.nextAdapterGen })[k]? =
          some d'' ∧ _
        rw [Table.get_insert]
        by_cases hk : d.id.str = k
        · rw [if_pos hk]
          exact ⟨_, rfl, h k d' hd'⟩
        · rw [if_neg hk]
          exact ⟨d', hd', Nat.le_refl _⟩
  by_cases hepoch : op = .advanceEpoch
  · subst hepoch
    exact ⟨h, f.epoch.le_next, (Later.refl f).adapters⟩
  obtain ⟨he, hn, ha⟩ := registry_frame (fun d hd => hreg ⟨d, hd⟩) hepoch hop f
  refine ⟨?_, by rw [he], ?_⟩
  · intro k d hd
    rw [hn]
    exact h k d (by rwa [← ha])
  · intro k d hd
    exact ⟨d, by rwa [ha], Nat.le_refl _⟩

theorem Fresh.generationsBounded {f : Fabric} (h : Fresh f) : f.GenerationsBounded := by
  intro k d hd
  have hnone : f.adapters[k]? = none := by cases h <;> exact Std.ExtTreeMap.getElem?_empty
  rw [hnone] at hd
  cases hd

theorem forward_run {ops : List Op} (hops : ∀ op ∈ ops, op.isRecover = false) {f : Fabric}
    (h : f.GenerationsBounded) : (run ops f).GenerationsBounded ∧ Later f (run ops f) :=
  Run.exec_preserves (P := fun g => g.GenerationsBounded ∧ Later f g)
    (fun op ho _ hg =>
      have hstep := forward_step (hops op ho) hg.1
      ⟨hstep.1, hg.2.trans hstep.2⟩)
    ⟨h, .refl f⟩

theorem generation_ext {tag : GenTag} {g g' : Generation tag}
    (h : g.value.toNat = g'.value.toNat) : g = g' := by
  cases g; cases g'
  exact congrArg Generation.mk (UInt64.toNat_inj.mp h)

/-- `F` does not carry the epoch, or not the generation of its adapter. -/
def Behind (f : Fabric) (F : AuthorityFence) : Prop :=
  F.epoch ≠ f.epoch ∨ ∃ d, f.adapter F.adapter = some d ∧ F.adapterGeneration ≠ d.generation

theorem Behind.not_authorized {f : Fabric} {F : AuthorityFence} (h : f.Behind F) :
    (f.checkFence F).authorized = false := by
  rw [← Bool.not_eq_true, checkFence_authorized]
  rintro ⟨d, w, hc⟩
  rcases h with hepoch | ⟨d', hd', hgen⟩
  · exact hepoch hc.epoch
  · obtain rfl : d = d' := Option.some.inj (hc.adapter.symm.trans hd')
    exact hgen hc.adapterGeneration

/-- `F` is authorized in `f`, has fallen behind in `g`, and `h` is later still. -/
theorem Behind.later {f g h : Fabric} {F : AuthorityFence} (hfg : Later f g) (hgh : Later g h)
    (hcurrent : (f.checkFence F).authorized = true) (hbehind : g.Behind F) : h.Behind F := by
  obtain ⟨d₁, w₁, h₁⟩ := checkFence_authorized.mp hcurrent
  obtain ⟨d₂, hd₂, hle⟩ := hfg.adapters _ d₁ h₁.adapter
  obtain ⟨d₃, hd₃, hle'⟩ := hgh.adapters _ d₂ hd₂
  rw [← h₁.adapterGeneration] at hle
  by_contra hnot
  have hepoch₃ : F.epoch = h.epoch := not_not.mp fun hne => hnot (.inl hne)
  have hgen₃ : F.adapterGeneration = d₃.generation :=
    not_not.mp fun hne => hnot (.inr ⟨d₃, hd₃, hne⟩)
  rcases hbehind with hepoch | ⟨d₂', hd₂', hgen⟩
  · -- the epoch of `F` is that of `f` and of `h`, so also the one in between
    have hle := hfg.epoch
    have hle' := hgh.epoch
    rw [← h₁.epoch] at hle
    rw [← hepoch₃] at hle'
    exact hepoch (generation_ext (Nat.le_antisymm hle hle'))
  · obtain rfl : d₂ = d₂' := Option.some.inj (hd₂.symm.trans hd₂')
    rw [← hgen₃] at hle'
    exact hgen (generation_ext (Nat.le_antisymm hle hle'))

/-- Without recovery, a fence that was authorized and has fallen behind the epoch or its adapter's
generation is not authorized, then or later. -/
theorem stale_forever {f₀ : Fabric} (hfresh : Fresh f₀) {ops₁ ops₂ ops₃ : List Op}
    (hops : ∀ op ∈ ops₁ ++ ops₂ ++ ops₃, op.isRecover = false) {F : AuthorityFence}
    (hcurrent : ((run ops₁ f₀).checkFence F).authorized = true)
    (hstale : F.epoch ≠ (run (ops₁ ++ ops₂) f₀).epoch ∨
      ∃ d, (run (ops₁ ++ ops₂) f₀).adapter F.adapter = some d ∧
        F.adapterGeneration ≠ d.generation) :
    ((run (ops₁ ++ ops₂ ++ ops₃) f₀).checkFence F).authorized = false := by
  have hops₁ : ∀ op ∈ ops₁, op.isRecover = false := fun op ho => hops op (by simp [ho])
  have hops₂ : ∀ op ∈ ops₂, op.isRecover = false := fun op ho => hops op (by simp [ho])
  have hops₃ : ∀ op ∈ ops₃, op.isRecover = false := fun op ho => hops op (by simp [ho])
  obtain ⟨hb₁, _⟩ := forward_run hops₁ hfresh.generationsBounded
  obtain ⟨hb₂, hfg⟩ := forward_run hops₂ hb₁
  obtain ⟨_, hgh⟩ := forward_run hops₃ hb₂
  simp only [run_append] at hstale ⊢
  exact (Behind.later hfg hgh hcurrent hstale).not_authorized

/-- Rolling the epoch makes the bound fence of the sample run stale for good. -/
theorem stale_forever_sample :
    ((run (sampleOps ++ [.advanceEpoch] ++ [.registerAdapter sampleAdapter]) .default).checkFence
      sampleFence).authorized = false :=
  stale_forever .default (by simp [sampleOps, Op.isRecover]) (by decide +kernel)
    (.inl (by decide +kernel))

/-! ## Active fences and the reference values -/

/-- Every active fence carries the epoch, and the generation and base-model revision of the
registered descriptor of its adapter. -/
def ActiveCurrent (f : Fabric) : Prop :=
  ∀ (k : Bytes) (ar : AdapterAuthorityRecord), f.authority[k]? = some ar → ar.active = true →
    ar.fence.epoch = f.epoch ∧ ∃ d, f.adapter ar.fence.adapter = some d ∧
      ar.fence.adapterGeneration = d.generation ∧
      ar.fence.baseModelRevision = d.baseModelRevision

/-- The step moves no reference value that an active fence depends on: an epoch roll finds no
active record (or an epoch that cannot move), and a registration is refused, or finds the record of
its adapter not active, or repeats the generation and revision registered before. -/
def Op.KeepsCurrent (f : Fabric) : Op → Prop
  | .advanceEpoch =>
    (∀ (k : Bytes) (ar : AdapterAuthorityRecord), f.authority[k]? = some ar → ar.active = false) ∨
      f.epoch.value.toNat = 2 ^ 64 - 1
  | .registerAdapter d =>
    ¬ Registrable d ∨ (∀ ar, f.authorityRecord d.id = some ar → ar.active = false) ∨
      ∃ old, f.adapter d.id = some old ∧ old.generation = f.nextAdapterGen ∧
        old.baseModelRevision = d.baseModelRevision
  | _ => True

section ActiveCurrent

variable {f : Fabric}

theorem next_eq_self_iff {tag : GenTag} {g : Generation tag} :
    g.next = g ↔ g.value.toNat = 2 ^ 64 - 1 := by
  have hnext := g.toNat_next
  constructor
  · intro h
    rw [h] at hnext
    by_contra hne
    rw [if_neg hne] at hnext
    omega
  · intro h
    rw [if_pos h] at hnext
    exact generation_ext hnext

theorem activeCurrent_advanceEpoch (h : f.ActiveCurrent) :
    f.advanceEpoch.ActiveCurrent ↔ Op.advanceEpoch.KeepsCurrent f := by
  constructor
  · intro h'
    by_cases hact : ∃ (k : Bytes) (ar : AdapterAuthorityRecord),
        f.authority[k]? = some ar ∧ ar.active = true
    · obtain ⟨k, ar, har, ha⟩ := hact
      have he : f.epoch.next = f.epoch := (h' k ar har ha).1.symm.trans (h k ar har ha).1
      exact .inr (next_eq_self_iff.mp he)
    · exact .inl fun k ar har => by
        by_contra ha
        exact hact ⟨k, ar, har, by simpa using ha⟩
  · intro hc k ar har ha
    obtain ⟨hepoch, hd⟩ := h k ar har ha
    refine ⟨?_, hd⟩
    rcases hc with hnone | hsat
    · rw [hnone k ar har] at ha
      cases ha
    · exact hepoch.trans (next_eq_self_iff.mpr hsat).symm

theorem activeCurrent_registerAdapter {d : AdapterDescriptor} (hex : f.Exclusive)
    (h : f.ActiveCurrent) :
    (f.registerAdapter d).2.ActiveCurrent ↔ (Op.registerAdapter d).KeepsCurrent f := by
  rcases registerAdapter_cases f d with ⟨hd, e, he⟩ | ⟨hd, he⟩
  · rw [he]
    exact ⟨fun _ => .inl hd, fun _ => h⟩
  rw [he]
  -- the descriptor registered for an active fence's adapter afterwards
  have hget (id : AdapterId) :
      (f.adapters.insert d.id.str { d with generation := f.nextAdapterGen })[id.str]? =
        if d.id = id then some { d with generation := f.nextAdapterGen } else f.adapter id := by
    rw [Table.get_insert]
    exact if_congr Id.str_eq_iff rfl rfl
  constructor
  · intro h'
    by_cases hact : ∃ ar, f.authorityRecord d.id = some ar ∧ ar.active = true
    · obtain ⟨ar, har, ha⟩ := hact
      have hid : ar.fence.adapter = d.id :=
        Id.str_inj (hex _ ar.fence ⟨ar, har, ha, rfl⟩).2
      obtain ⟨_, old, hold, hgen, hrev⟩ := h _ ar har ha
      obtain ⟨_, new, hnew, hgen', hrev'⟩ := h' _ ar har ha
      have hnew : some { d with generation := f.nextAdapterGen } = some new := by
        rw [← hnew, hid]
        show _ = (f.adapters.insert _ _)[d.id.str]?
        rw [hget, if_pos rfl]
      cases hnew
      rw [hid] at hold
      exact .inr (.inr ⟨old, hold, hgen.symm.trans hgen', hrev.symm.trans hrev'⟩)
    · refine .inr (.inl fun ar har => ?_)
      by_contra ha
      exact hact ⟨ar, har, by simpa using ha⟩
  · intro hc k ar har ha
    obtain ⟨hepoch, old, hold, hgen, hrev⟩ := h k ar har ha
    refine ⟨hepoch, ?_⟩
    show ∃ d', (f.adapters.insert _ _)[ar.fence.adapter.str]? = some d' ∧ _
    rw [hget]
    by_cases hid : d.id = ar.fence.adapter
    · rw [if_pos hid]
      rcases hc with hreg | hina | ⟨old', hold', hgen', hrev'⟩
      · exact absurd hd hreg
      · have hkey : ar.fence.adapter.str = k := (hex k ar.fence ⟨ar, har, ha, rfl⟩).2
        rw [hina ar (by rw [hid, authorityRecord, hkey]; exact har)] at ha
        cases ha
      · rw [hid, hold] at hold'
        cases hold'
        exact ⟨_, rfl, hgen.trans hgen', hrev.trans hrev'⟩
    · rw [if_neg hid]
      exact ⟨old, hold, hgen, hrev⟩

theorem activeCurrent_step {op : Op} (hop : op.Keyed) (hrec : op.isRecover = false)
    (hex : f.Exclusive) (h : f.ActiveCurrent) :
    (op.apply f).ActiveCurrent ↔ op.KeepsCurrent f := by
  by_cases hreg : ∃ d, op = .registerAdapter d
  · obtain ⟨d, rfl⟩ := hreg
    exact activeCurrent_registerAdapter hex h
  by_cases hepoch : op = .advanceEpoch
  · subst hepoch
    exact activeCurrent_advanceEpoch h
  have hkeeps : op.KeepsCurrent f := by
    cases op with
    | registerAdapter d => exact absurd ⟨d, rfl⟩ hreg
    | advanceEpoch => exact absurd rfl hepoch
    | _ => trivial
  obtain ⟨he, _, hadapters⟩ := registry_frame (fun d hd => hreg ⟨d, hd⟩) hepoch hrec f
  refine ⟨fun _ => hkeeps, fun _ k ar har ha => ?_⟩
  unfold adapter
  rw [he, hadapters]
  rcases active_step hop har ha with hg | hs
  · obtain ⟨d, w, hc⟩ := checkFence_authorized.mp hg.authorized
    exact ⟨hc.epoch, d, hc.adapter, hc.adapterGeneration, hc.baseModelRevision⟩
  · obtain ⟨ar₀, h₀, ha₀, _, hF⟩ := hs.before
    rw [← hF]
    exact h k ar₀ h₀ ha₀

end ActiveCurrent

theorem Fresh.activeCurrent {f : Fabric} (h : Fresh f) : f.ActiveCurrent := by
  intro k ar har
  rw [h.no_record] at har
  cases har

/-- Every state of a run has current active fences exactly when every step of it leaves alone what
they depend on. -/
theorem active_current_iff {f₀ : Fabric} (hfresh : Fresh f₀) {ops : List Op}
    (hops : ∀ op ∈ ops, op.Keyed ∧ op.isRecover = false) :
    (∀ pre, pre <+: ops → (run pre f₀).ActiveCurrent) ↔
      ∀ pre op, pre ++ [op] <+: ops → op.KeepsCurrent (run pre f₀) :=
  Run.exec_always_iff (I := Exclusive) (P := ActiveCurrent) (C := Op.KeepsCurrent)
    hfresh.exclusive hfresh.activeCurrent
    (fun op ho _ hex => exclusive_step (hops op ho).1 hex)
    (fun op ho _ hex h => activeCurrent_step (hops op ho).1 (hops op ho).2 hex h)

theorem active_current_iff_sample :
    (∀ pre, pre <+: sampleOps → (run pre .default).ActiveCurrent) ↔
      ∀ pre op, pre ++ [op] <+: sampleOps → op.KeepsCurrent (run pre .default) :=
  active_current_iff .default (by simp [sampleOps, Op.Keyed, Op.isRecover, sampleFence])

/-- Rolling the epoch under a bound fence leaves it active with the old epoch. -/
theorem active_current_counterexample :
    ¬ (run (sampleOps ++ [.advanceEpoch]) .default).ActiveCurrent := by
  obtain ⟨ar, har, ha, hF⟩ := holds_of_lookup (f := run (sampleOps ++ [.advanceEpoch]) .default)
    (k := sampleAdapter.id.str) (F := sampleFence) (by decide +kernel)
  intro h
  have hepoch := (h _ ar har ha).1
  rw [hF] at hepoch
  exact absurd hepoch (by decide +kernel)

end Fabric

end AdapterFabric
