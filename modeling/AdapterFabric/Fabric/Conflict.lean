import AdapterFabric.Fabric.Exclusive

/-!
# AdapterFabric.Fabric.Conflict

When an authorized fence is refused for an authority conflict.

* `conflicts_iff_slot`: exactly when the exclusive slot holds the fence of another adapter.
* `guarded_step`: slot and active record part exactly when the adapter in the slot is loaded again,
  or a fence is bound under another adapter than it names.
* `conflict_iff_active`: so an authorized fence is refused exactly when another record is active, as
  long as slot and records tell the same.
-/

namespace AdapterFabric

namespace Fabric

/-- The bind of `F` throws `authority_conflict`. -/
def Conflicts (f : Fabric) (F : AuthorityFence) : Prop :=
  ∃ message, (f.bindAuthority F.adapter F).1 = .error ⟨.authorityConflict, message⟩

/-- The authority record of some other adapter is active. -/
def OtherActive (f : Fabric) (id : AdapterId) : Prop :=
  ∃ (k : Bytes) (ar : AdapterAuthorityRecord), k ≠ id.str ∧ f.authority[k]? = some ar ∧
    ar.active = true

/-- The fabric authorizes `F`, and its adapter has an authority record. -/
structure Bindable (f : Fabric) (F : AuthorityFence) : Prop where
  authorized : (f.checkFence F).authorized = true
  record : (f.authorityRecord F.adapter).isSome = true

/-- A bindable fence is refused for the record of another adapter, and bound otherwise. -/
def ConflictLaw (f : Fabric) (F : AuthorityFence) : Prop :=
  (f.Conflicts F ↔ f.OtherActive F.adapter) ∧ (¬ f.OtherActive F.adapter → f.Binds F.adapter F)

/-- The slot is held for another adapter than `id`, and no record but that of `id` is active. -/
def Orphaned (f : Fabric) (id : AdapterId) : Prop :=
  (∃ held ∈ f.activeFence, held.adapter ≠ id) ∧ ¬ f.OtherActive id

/-- The record of another adapter than `id` is active, and the slot is free or held for `id`. -/
def Unguarded (f : Fabric) (id : AdapterId) : Prop :=
  f.OtherActive id ∧ ∀ held ∈ f.activeFence, held.adapter = id

section Bind

variable {f : Fabric} {F : AuthorityFence}

theorem conflicts_iff_slot (hF : f.Bindable F) :
    f.Conflicts F ↔ ∃ held ∈ f.activeFence, held.adapter ≠ F.adapter := by
  unfold Conflicts bindAuthority
  rw [if_neg (not_not.mpr hF.authorized)]
  by_cases hheld : ∃ held ∈ f.activeFence, held.adapter ≠ F.adapter
  · rw [if_pos hheld]
    exact ⟨fun _ => hheld, fun _ => ⟨_, rfl⟩⟩
  · rw [if_neg hheld]
    refine ⟨?_, fun h => absurd h hheld⟩
    rintro ⟨message, h⟩
    obtain ⟨ar, har⟩ := Option.isSome_iff_exists.mp hF.record
    have har : f.authority[F.adapter.str]? = some ar := har
    rw [har] at h
    cases h

theorem binds_of_not_conflicts (hF : f.Bindable F) (hfree : ¬ f.Conflicts F) :
    f.Binds F.adapter F := by
  rw [conflicts_iff_slot hF] at hfree
  obtain ⟨ar, har⟩ := Option.isSome_iff_exists.mp hF.record
  have har : f.authority[F.adapter.str]? = some ar := har
  refine ⟨f.checkFence F, ?_, hF.authorized⟩
  unfold bindAuthority
  rw [if_neg (not_not.mpr hF.authorized), if_neg hfree, har]

theorem slot_of_otherActive (hex : f.Exclusive) {id : AdapterId} (h : f.OtherActive id) :
    ∃ held ∈ f.activeFence, held.adapter ≠ id := by
  obtain ⟨k, ar, hk, har, ha⟩ := h
  obtain ⟨hslot, hkey⟩ := hex k ar.fence ⟨ar, har, ha, rfl⟩
  refine ⟨ar.fence, hslot, fun hid => hk ?_⟩
  rw [← hkey, ← hid]

theorem conflictLaw_iff (hF : f.Bindable F) :
    f.ConflictLaw F ↔ ¬ f.Orphaned F.adapter ∧ ¬ f.Unguarded F.adapter := by
  have hslot := conflicts_iff_slot hF
  constructor
  · rintro ⟨hiff, -⟩
    refine ⟨fun ho => ho.2 (hiff.mp (hslot.mpr ho.1)), fun hu => ?_⟩
    obtain ⟨held, hheld, hne⟩ := hslot.mp (hiff.mpr hu.1)
    exact hne (hu.2 held hheld)
  · rintro ⟨horphaned, hunguarded⟩
    have hiff : f.Conflicts F ↔ f.OtherActive F.adapter := by
      rw [hslot]
      constructor
      · intro hheld
        exact not_not.mp fun hno => horphaned ⟨hheld, hno⟩
      · intro hother
        by_contra hno
        exact hunguarded ⟨hother, fun held hheld => not_not.mp fun hne => hno ⟨held, hheld, hne⟩⟩
    exact ⟨hiff, fun hno => binds_of_not_conflicts hF fun hc => hno (hiff.mp hc)⟩

end Bind

/-! ## What sets the slot and the records apart -/

/-- The fence in the slot is that of an active record. -/
def SlotActive (f : Fabric) : Prop :=
  ∀ held, f.activeFence = some held → f.Holds held.adapter.str held

/-- The operation loads the adapter in the slot again, which replaces its record. -/
def Op.ReloadsSlot (f : Fabric) : Op → Prop
  | .createInstance adapter _ _ _ _ _ =>
    (f.adapter adapter).isSome = true ∧ ∃ held, f.activeFence = some held ∧ held.adapter = adapter
  | _ => False

/-- The operation binds a fence under another adapter than it names: it is authorized, the adapter
has a record, and the slot is not held for a third one. -/
def Op.Misbinds (f : Fabric) : Op → Prop
  | .bindAuthority id F =>
    id ≠ F.adapter ∧ (f.checkFence F).authorized = true ∧
      (∀ held ∈ f.activeFence, held.adapter = id) ∧ (f.authorityRecord id).isSome = true
  | _ => False

/-- The slot holds the fence of the one active record; it is free when there is none. -/
structure Guarded (f : Fabric) : Prop where
  slotActive : f.SlotActive
  exclusive : f.Exclusive

section Slot

variable {f : Fabric}

theorem Guarded.not_orphaned (h : f.Guarded) (id : AdapterId) : ¬ f.Orphaned id := by
  rintro ⟨⟨held, hslot, hne⟩, hno⟩
  obtain ⟨ar, har, ha, _⟩ := h.slotActive held hslot
  exact hno ⟨held.adapter.str, ar, fun hstr => hne (Id.str_inj hstr), har, ha⟩

theorem Guarded.not_unguarded (h : f.Guarded) (id : AdapterId) : ¬ f.Unguarded id := by
  rintro ⟨hother, hslot⟩
  obtain ⟨held, hheld, hne⟩ := slot_of_otherActive h.exclusive hother
  exact hne (hslot held hheld)

theorem Fresh.slotActive (h : Fresh f) : f.SlotActive := by
  intro held hslot
  cases h <;> cases hslot

theorem SlotActive.congr {f' : Fabric} (h : f.SlotActive) (hauthority : f'.authority = f.authority)
    (hslot : f'.activeFence = f.activeFence) : f'.SlotActive := by
  intro held hheld
  rw [hslot] at hheld
  obtain ⟨ar, har, ha, hF⟩ := h held hheld
  exact ⟨ar, by rwa [hauthority], ha, hF⟩

theorem createInstance_slotActive {adapter : AdapterId} {worker : WorkerId} {boot : WorkerBootId}
    {device : DeviceId} {bytes : UInt64} {rng : Rng} (h : f.SlotActive) :
    (f.createInstance adapter worker boot device bytes rng).2.1.SlotActive ↔
      ¬ ((f.adapter adapter).isSome = true ∧
        ∃ held, f.activeFence = some held ∧ held.adapter = adapter) := by
  unfold createInstance
  cases f.adapter adapter with
  | none => simpa using h
  | some d =>
    simp only [Option.isSome_some, true_and]
    constructor
    · rintro hactive ⟨held, hslot, rfl⟩
      obtain ⟨ar, har, ha, _⟩ := hactive held hslot
      rw [Table.get_insert, if_pos rfl] at har
      cases har
      cases ha
    · intro hother held hslot
      obtain ⟨ar, har, ha, hF⟩ := h held hslot
      refine ⟨ar, ?_, ha, hF⟩
      rw [Table.get_insert, if_neg fun hkey => hother ⟨held, hslot, (Id.str_inj hkey).symm⟩]
      exact har

theorem bindAuthority_slotActive {F : AuthorityFence} (h : f.SlotActive) :
    (f.bindAuthority F.adapter F).2.SlotActive := by
  rcases bindAuthority_cases f F.adapter F with he | ⟨ar, _, _, _, he⟩
  · rwa [he]
  · rw [he]
    intro held hslot
    cases hslot
    exact ⟨granted ar F, by rw [Table.get_insert, if_pos rfl], rfl, rfl⟩

theorem revokeWhere_slotActive (lost : AuthorityFence → Bool) (h : f.SlotActive) :
    (f.revokeWhere lost).SlotActive := by
  intro held hslot
  obtain ⟨hslot, hkept⟩ := Option.filter_eq_some_iff.mp hslot
  obtain ⟨ar, har, ha, rfl⟩ := h held hslot
  refine ⟨ar, ?_, ha, rfl⟩
  rw [revokeWhere_authority, har, Option.map_some, if_neg (by simpa using hkept)]

theorem invalidate_slotActive {id : AdapterId} {trigger : InvalidationTrigger} {reason : Bytes}
    (h : f.SlotActive) : (f.invalidate id trigger reason).2.SlotActive := by
  intro held hslot
  obtain ⟨hslot, hkept⟩ := Option.filter_eq_some_iff.mp hslot
  obtain ⟨ar, har, ha, hF⟩ := h held hslot
  refine ⟨ar, ?_, ha, hF⟩
  show (f.authority.modify id.str revoked)[held.adapter.str]? = some ar
  rw [Table.get_modify, if_neg fun hkey => of_decide_eq_true hkept (Id.str_inj hkey).symm]
  exact har

theorem setLifecycle_slotActive {id : AdapterId} {state : LifecycleState} (h : f.SlotActive) :
    (f.setLifecycle id state).SlotActive := by
  intro held hslot
  obtain ⟨ar, har, ha, hF⟩ := h held hslot
  show ∃ ar', (f.authority.modify id.str fun ar => { ar with lifecycle := state })[
    held.adapter.str]? = some ar' ∧ _
  rw [Table.get_modify]
  by_cases hkey : id.str = held.adapter.str
  · rw [if_pos hkey, har]
    exact ⟨_, rfl, ha, hF⟩
  · rw [if_neg hkey]
    exact ⟨ar, har, ha, hF⟩

theorem slotActive_step {op : Op} (hop : op.Keyed) (h : f.SlotActive) :
    (op.apply f).SlotActive ↔ ¬ op.ReloadsSlot f := by
  by_cases hquiet : op.isQuiet = true
  · have hq := Op.quiet_apply hquiet f
    have hreload : ¬ op.ReloadsSlot f := by
      cases op with
      | createInstance => cases hquiet
      | _ => exact id
    exact ⟨fun _ => hreload, fun _ => h.congr hq.authority hq.activeFence⟩
  cases op with
  | registerAdapter d =>
    refine ⟨fun _ => id, fun _ => ?_⟩
    obtain ⟨_, _, he⟩ := registerAdapter_frame f d
    refine h.congr ?_ ?_ <;> simp only [Op.apply, he]
  | createInstance adapter worker boot device bytes rng => exact createInstance_slotActive h
  | bindAuthority id fence =>
    obtain rfl : id = fence.adapter := hop
    exact ⟨fun _ hr => hr, fun _ => bindAuthority_slotActive h⟩
  | onWorkerDown id =>
    have hrevoked : (f.revokeWhere fun fence => fence.worker = id).SlotActive :=
      revokeWhere_slotActive _ h
    exact ⟨fun _ hr => hr, fun _ => hrevoked.congr rfl rfl⟩
  | onWorkerRestart id boot =>
    have hrevoked : (f.revokeWhere fun fence => fence.worker = id ∧ fence.boot ≠ boot).SlotActive :=
      revokeWhere_slotActive _ h
    exact ⟨fun _ hr => hr, fun _ => hrevoked.congr rfl rfl⟩
  | registerWorker rec => exact ⟨fun _ hr => hr, fun _ => h.congr rfl rfl⟩
  | invalidate id trigger reason => exact ⟨fun _ hr => hr, fun _ => invalidate_slotActive h⟩
  | advanceEpoch => exact ⟨fun _ hr => hr, fun _ => h.congr rfl rfl⟩
  | recover s => exact ⟨fun _ hr => hr, fun _ => h.congr rfl rfl⟩
  | setLifecycle id state => exact ⟨fun _ hr => hr, fun _ => setLifecycle_slotActive h⟩
  | _ => exact absurd rfl hquiet

/-- Other binds under an adapter that the fence does not name are refused. -/
theorem apply_unkeyed {op : Op} (hop : ¬ op.Keyed) (h : ¬ op.Misbinds f) : op.apply f = f := by
  cases op with
  | bindAuthority id F =>
    rcases bindAuthority_cases f id F with he | ⟨ar, hauth, hslot, har, _⟩
    · exact he
    · have hrecord : (f.authorityRecord id).isSome = true := by
        rw [authorityRecord, har, Option.isSome_some]
      exact absurd ⟨hop, hauth, hslot, hrecord⟩ h
  | _ => exact absurd trivial hop

/-- What is bound under `id` then is not the fence of `id`. -/
theorem not_exclusive_of_misbinds {op : Op} (h : op.Misbinds f) : ¬ (op.apply f).Exclusive := by
  cases op with
  | bindAuthority id F =>
    obtain ⟨hne, hauth, hslot, hrecord⟩ := h
    obtain ⟨ar, har⟩ := Option.isSome_iff_exists.mp hrecord
    have hbound : ((Op.bindAuthority id F).apply f).Holds id.str F := by
      have hfree : ¬ ∃ held ∈ f.activeFence, held.adapter ≠ id :=
        fun ⟨held, hheld, hother⟩ => hother (hslot held hheld)
      have har : f.authority[id.str]? = some ar := har
      refine ⟨granted ar F, ?_, rfl, rfl⟩
      simp only [Op.apply, bindAuthority, if_neg (not_not.mpr hauth), if_neg hfree, har]
      rw [Table.get_insert, if_pos rfl]
    intro hex
    exact hne (Id.str_inj (hex _ _ hbound).2).symm
  | _ => exact h.elim

theorem guarded_step {op : Op} (h : f.Guarded) :
    (op.apply f).Guarded ↔ ¬ op.ReloadsSlot f ∧ ¬ op.Misbinds f := by
  by_cases hop : op.Keyed
  · have hno : ¬ op.Misbinds f := by
      cases op with
      | bindAuthority id F => exact fun hm => hm.1 hop
      | _ => exact id
    constructor
    · intro h'
      exact ⟨(slotActive_step hop h.slotActive).mp h'.slotActive, hno⟩
    · rintro ⟨hreload, -⟩
      exact ⟨(slotActive_step hop h.slotActive).mpr hreload, exclusive_step hop h.exclusive⟩
  · have hreload : ¬ op.ReloadsSlot f := by
      cases op with
      | createInstance => exact absurd trivial hop
      | _ => exact id
    constructor
    · intro h'
      exact ⟨hreload, fun hm => not_exclusive_of_misbinds hm h'.exclusive⟩
    · rintro ⟨-, hmisbinds⟩
      rwa [apply_unkeyed hop hmisbinds]

end Slot

/-- In every state of a run, an authorized fence with a record meets `ConflictLaw` exactly when the
slot is neither orphaned nor unguarded; in a run that never loads the adapter in the slot again, and
never binds a fence under another adapter than it names, it does in every state. -/
theorem conflict_iff_active {f₀ : Fabric} {ops : List Op} (hfresh : Fresh f₀) :
    (∀ F, (run ops f₀).Bindable F → ((run ops f₀).ConflictLaw F ↔
      ¬ (run ops f₀).Orphaned F.adapter ∧ ¬ (run ops f₀).Unguarded F.adapter)) ∧
    ((∀ pre op, pre ++ [op] <+: ops →
        ¬ op.ReloadsSlot (run pre f₀) ∧ ¬ op.Misbinds (run pre f₀)) →
      ∀ pre, pre <+: ops → ∀ F, (run pre f₀).Bindable F → (run pre f₀).ConflictLaw F) := by
  constructor
  · intro F hF
    exact conflictLaw_iff hF
  · intro hsteps pre hpre F hF
    have hguarded : (run pre f₀).Guarded := (Run.exec_always_iff (I := fun _ => True)
      (P := Guarded) (C := fun f op => ¬ op.ReloadsSlot f ∧ ¬ op.Misbinds f) trivial
      ⟨hfresh.slotActive, hfresh.exclusive⟩ (fun _ _ _ _ => trivial)
      (fun op _ _ _ h => guarded_step h)).mpr hsteps pre hpre
    exact (conflictLaw_iff hF).mpr ⟨hguarded.not_orphaned _, hguarded.not_unguarded _⟩

/-! ### A run that loads the adapter in the slot again -/

def rivalAdapter : AdapterDescriptor := { sampleAdapter with id := ⟨.ofBytes [10]⟩ }

/-- A fence of the second adapter on the same worker. -/
def rivalFence : AuthorityFence :=
  { sampleFence with adapter := rivalAdapter.id, adapterGeneration := ⟨2⟩ }

def conflictOps : List Op := sampleOps ++ [
  .registerAdapter rivalAdapter,
  .createInstance rivalAdapter.id sampleWorker.id sampleWorker.boot .nil 1 .instanceInit]

def reloadOps : List Op := conflictOps ++ [
  .createInstance sampleAdapter.id sampleWorker.id sampleWorker.boot .nil 1 .instanceInit]

theorem reloadOps_keyed : ∀ op ∈ reloadOps, op.Keyed := by
  simp [reloadOps, conflictOps, sampleOps, Op.Keyed, sampleFence]

theorem conflictOps_otherActive : (run conflictOps .default).OtherActive rivalFence.adapter := by
  obtain ⟨ar, har, ha, _⟩ := holds_of_lookup (f := run conflictOps .default)
    (k := sampleAdapter.id.str) (F := sampleFence) (by decide +kernel)
  exact ⟨sampleAdapter.id.str, ar, by decide +kernel, har, ha⟩

/-- The slot is held for the adapter that is active, so the second adapter is refused. -/
theorem conflict_iff_active_sample : (run conflictOps .default).Conflicts rivalFence := by
  have hF : (run conflictOps .default).Bindable rivalFence :=
    ⟨by decide +kernel, by decide +kernel⟩
  have hslot : (run conflictOps .default).activeFence = some sampleFence := by decide +kernel
  have hunguarded : ¬ (run conflictOps .default).Unguarded rivalFence.adapter := by
    rintro ⟨-, hfree⟩
    have hsame := hfree sampleFence hslot
    revert hsame
    decide +kernel
  have hlaw := ((conflict_iff_active .default).1 rivalFence hF).mpr
    ⟨fun ho => ho.2 conflictOps_otherActive, hunguarded⟩
  exact hlaw.1.mpr conflictOps_otherActive

/-- No record is active, but the slot is still held for the adapter that was loaded again. -/
theorem conflict_iff_active_counterexample :
    ∃ f₀ ops F, Fresh f₀ ∧ (∀ op ∈ ops, op.Keyed) ∧ (run ops f₀).Bindable F ∧
      (run ops f₀).Conflicts F ∧ ¬ (run ops f₀).OtherActive F.adapter := by
  have hslot : (run reloadOps .default).activeFence = some sampleFence := by decide +kernel
  refine ⟨.default, reloadOps, rivalFence, .default, reloadOps_keyed, ⟨?_, ?_⟩,
    ⟨ascii "another adapter holds exclusive execution authority", ?_⟩, ?_⟩
  · decide +kernel
  · decide +kernel
  · decide +kernel
  · -- an active record would be that of the slot, which is not active
    rintro ⟨k, ar, _, har, ha⟩
    obtain ⟨hheld, hkey⟩ := run_exclusive .default reloadOps_keyed k ar.fence ⟨ar, har, ha, rfl⟩
    have hfence : ar.fence = sampleFence := Option.some.inj (hheld.symm.trans hslot)
    have hk : sampleAdapter.id.str = k := by rw [← hkey, hfence]; rfl
    have hinactive : ((run reloadOps .default).authority[sampleAdapter.id.str]?).map (·.active) =
      some false := by decide +kernel
    rw [hk, har, Option.map_some, ha] at hinactive
    cases hinactive

end Fabric

end AdapterFabric
