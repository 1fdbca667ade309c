import AdapterFabric.Fabric.Exclusive
import AdapterFabric.Fabric.Lifecycle
import AdapterFabric.Fabric.Residency
import Mathlib.Logic.Function.Basic

/-!
# AdapterFabric.Fabric.Eviction

Which residencies `evict` removes, next to the pins that are outstanding (`fabric.cpp`,
`residency.hpp`).

`evict` decides from the counters of the residency. Pins are counted there, in 32 bits; that a
record is active is not, since nothing writes `active_refs`.

* `counters_cases`: what an operation can do to the counters of a residency.
* `evict_safe_iff`: a run evicts neither pinned nor active instances exactly when its binds find
  their instances pinned, and its unpins leave none of an active record unpinned.
* `pins_counted_iff`: with fewer than `2 ^ 32` pins outstanding the counter is exact.
-/

namespace AdapterFabric

open Std

namespace Fabric

/-! ## Counters across one operation -/

/-- The counters of `r` and `r'` are the same. -/
structure SameCounters (r r' : ResidencyRecord) : Prop where
  activeRefs : r'.activeRefs = r.activeRefs
  pinCount : r'.pinCount = r.pinCount
  protected_ : r'.protected_ = r.protected_

theorem SameCounters.refl (r : ResidencyRecord) : SameCounters r r := ⟨rfl, rfl, rfl⟩

/-- The counters under which a residency is evicted. -/
structure Evictable (r : ResidencyRecord) : Prop where
  activeRefs : r.activeRefs = 0
  pinCount : r.pinCount = 0
  protected_ : r.protected_ = false

theorem SameCounters.evictable {r r' : ResidencyRecord} (h : SameCounters r r') :
    Evictable r' ↔ Evictable r := by
  constructor
  · rintro ⟨h1, h2, h3⟩
    exact ⟨h.activeRefs ▸ h1, h.pinCount ▸ h2, h.protected_ ▸ h3⟩
  · rintro ⟨h1, h2, h3⟩
    exact ⟨h.activeRefs.trans h1, h.pinCount.trans h2, h.protected_.trans h3⟩

namespace Op

/-- The operation creates an instance, and draws `inst` for it. -/
def Draws (f : Fabric) (inst : AdapterInstanceId) : Op → Prop
  | createInstance adapter _ _ _ _ rng => (f.adapter adapter).isSome ∧ drawn rng = inst
  | _ => False

end Op

section Cases

variable {f : Fabric} {op : Op} {inst : AdapterInstanceId} {r' : ResidencyRecord}

theorem evict_iff : (f.evict inst).1.1 = true ↔ ∃ r, f.residency inst = some r ∧ Evictable r := by
  unfold evict
  cases f.residency inst with
  | none => simp
  | some r =>
    have hrefs : r.activeRefs > 0 ↔ ¬ r.activeRefs = 0 := UInt32.pos_iff_ne_zero
    have hpins : r.pinCount > 0 ↔ ¬ r.pinCount = 0 := UInt32.pos_iff_ne_zero
    dsimp only
    split
    · rename_i h
      simp only [Option.some.injEq, exists_eq_left', Bool.false_eq_true, false_iff]
      exact fun he => hrefs.mp h he.activeRefs
    · rename_i h
      have h := not_not.mp fun hne => h (hrefs.mpr hne)
      split
      · rename_i h'
        simp only [Option.some.injEq, exists_eq_left', Bool.false_eq_true, false_iff]
        rintro ⟨-, hp, hprot⟩
        rcases h' with h' | h'
        · exact hpins.mp h' hp
        · rw [hprot] at h'
          cases h'
      · rename_i h'
        obtain ⟨h1, h2⟩ := not_or.mp h'
        simp only [Option.some.injEq, exists_eq_left', true_iff]
        exact ⟨h, not_not.mp fun hne => h1 (hpins.mpr hne), by simpa using h2⟩

theorem counters_cases (h : (op.apply f).residency inst = some r') :
    (op.Draws f inst ∧ Evictable r') ∨
    ∃ r, f.residency inst = some r ∧
      ((SameCounters r r' ∧ op ≠ .pin inst ∧ op ≠ .unpin inst) ∨
        (op = .pin inst ∧ r' = pinned r) ∨ (op = .unpin inst ∧ r' = unpinned r)) := by
  rcases residency_cases h with ⟨_, _, _, _, _, _, d, rfl, hinst, hd, rfl⟩ | ⟨r, hr, hcases⟩
  · exact .inl ⟨⟨by rw [hd]; rfl, hinst⟩, rfl, rfl, rfl⟩
  · refine .inr ⟨r, hr, ?_⟩
    rcases hcases with hpin | hunpin | ⟨bytes, rfl, rfl⟩ | ⟨hpin, hunpin, hkept⟩
    · exact .inr (.inl hpin)
    · exact .inr (.inr hunpin)
    · exact .inl ⟨⟨rfl, rfl, rfl⟩, by simp, by simp⟩
    · refine .inl ⟨?_, hpin, hunpin⟩
      rcases hkept with rfl | ⟨migration, rfl⟩
      · exact .refl r'
      · exact ⟨rfl, rfl, rfl⟩

end Cases

/-! ## Active records and their instances -/

/-- An active record names the instance. -/
def Names (f : Fabric) (inst : AdapterInstanceId) : Prop :=
  ∃ (k : Bytes) (ar : AdapterAuthorityRecord), f.authority[k]? = some ar ∧ ar.active = true ∧
    ar.instanceId = inst

section Active

variable {f : Fabric} {op : Op} {k : Bytes} {ar' : AdapterAuthorityRecord}

/-- A record that is active after an operation was bound by it, or was active before and is not
replaced. -/
theorem active_cases (h : (op.apply f).authority[k]? = some ar') (ha : ar'.active = true) :
    (∃ id fence ar, op = .bindAuthority id fence ∧ id.str = k ∧
      (f.checkFence fence).authorized = true ∧
      (∀ held, f.activeFence = some held → held.adapter = id) ∧ f.authority[k]? = some ar ∧
      ar' = granted ar fence) ∨
    ∃ ar, f.authority[k]? = some ar ∧ ar.active = true ∧ ar.instanceId = ar'.instanceId := by
  rcases record_cases h with ⟨_, _, _, _, _, _, _, _, _, _, rfl⟩ | ⟨ar, har, hcases⟩
  · cases ha
  · rcases hcases with ⟨id, fence, rfl, hk, hauth, hfree, rfl⟩ | rfl | rfl | ⟨_, _, _, _, rfl⟩
    · exact .inl ⟨id, fence, ar, rfl, hk, hauth, hfree, har, rfl⟩
    · exact .inr ⟨ar', har, ha, rfl⟩
    · cases ha
    · exact .inr ⟨ar, har, ha, rfl⟩

end Active

/-! ## Pins that are outstanding -/

/-- A Fabric next to the pins of each instance: one more for each `pin`, one less for each `unpin`
while there are any. -/
structure Tallied where
  fabric : Fabric
  pins : AdapterInstanceId → ℕ := fun _ => 0

namespace Tallied

def apply (op : Op) (s : Tallied) : Tallied where
  fabric := op.apply s.fabric
  pins :=
    match op with
    | .pin inst => Function.update s.pins inst (s.pins inst + 1)
    | .unpin inst => Function.update s.pins inst (s.pins inst - 1)
    | _ => s.pins

def after (ops : List Op) (f₀ : Fabric) : Tallied := Run.exec apply ops { fabric := f₀ }

theorem fabric_after (ops : List Op) (f₀ : Fabric) : (after ops f₀).fabric = run ops f₀ :=
  (List.foldl_hom Tallied.fabric fun _ _ => rfl).symm

/-- `evict` returns true for nothing that is pinned or active. -/
def EvictsSafely (s : Tallied) : Prop :=
  ∀ inst, (s.fabric.evict inst).1.1 = true →
    (∃ r, s.fabric.residency inst = some r) ∧ s.pins inst = 0 ∧
      ∀ (k : Bytes) (ar : AdapterAuthorityRecord), s.fabric.authority[k]? = some ar →
        ar.active = true → ar.instanceId ≠ inst

end Tallied

/-- A bind that goes through finds its instance pinned or gone, an unpin that empties the counter
takes the last pin of an instance that no active record names, and an id that is drawn has no pins
and is named by no active record but the one it replaces. -/
def Op.Guards (s : Tallied) : Op → Prop
  | bindAuthority id fence =>
    (s.fabric.checkFence fence).authorized = true →
      (∀ held, s.fabric.activeFence = some held → held.adapter = id) →
      ∀ ar r, s.fabric.authorityRecord id = some ar → s.fabric.residency ar.instanceId = some r →
        r.pinCount ≠ 0 ∨ r.protected_ = true
  | unpin inst =>
    ∀ r, s.fabric.residency inst = some r → r.pinCount ≤ 1 →
      s.pins inst ≤ 1 ∧ ¬ s.fabric.Names inst
  | createInstance adapter _ _ _ _ rng =>
    (s.fabric.adapter adapter).isSome → s.pins (drawn rng) = 0 ∧
      ∀ (k : Bytes) (ar : AdapterAuthorityRecord), s.fabric.authority[k]? = some ar →
        ar.active = true → ar.instanceId = drawn rng → k = adapter.str
  | _ => True

/-! ## Which steps keep evictions safe -/

/-- Nothing counts the active records of an instance. -/
def Unreferenced (f : Fabric) : Prop :=
  ∀ inst r, f.residency inst = some r → r.activeRefs = 0

section Step

variable {f : Fabric} {op : Op} {inst : AdapterInstanceId} {r : ResidencyRecord} {s : Tallied}

theorem Fresh.residency_none (h : Fresh f) : f.residency inst = none := by
  cases h <;> exact ExtTreeMap.getElem?_empty

theorem Fresh.unreferenced (h : Fresh f) : Unreferenced f := by
  intro inst r hr
  rw [h.residency_none] at hr
  cases hr

theorem Unreferenced.apply (h : Unreferenced f) (op : Op) : Unreferenced (op.apply f) := by
  intro inst r' hr'
  rcases counters_cases hr' with ⟨_, he⟩ | ⟨r, hr, ⟨hsame, _, _⟩ | ⟨_, rfl⟩ | ⟨_, rfl⟩⟩
  · exact he.activeRefs
  · exact hsame.activeRefs.trans (h inst r hr)
  · exact h inst r hr
  · exact h inst r hr

theorem toNat_unpinned (r : ResidencyRecord) :
    (unpinned r).pinCount.toNat = r.pinCount.toNat - 1 := by
  have hone : (1 : UInt32).toNat = 1 := rfl
  have hzero : (0 : UInt32).toNat = 0 := rfl
  show (if r.pinCount > 0 then r.pinCount - 1 else r.pinCount).toNat = _
  split
  · rename_i hpos
    have hpos := UInt32.lt_iff_toNat_lt.mp hpos
    rw [UInt32.toNat_sub_of_le _ _ (UInt32.le_iff_toNat_le.mpr (by omega))]
    omega
  · rename_i hnone
    have hnone := UInt32.le_iff_toNat_le.mp (UInt32.not_lt.mp hnone)
    omega

theorem unpinned_pinCount : (unpinned r).pinCount = 0 ↔ r.pinCount ≤ 1 := by
  have hone : (1 : UInt32).toNat = 1 := rfl
  have hzero : (0 : UInt32).toNat = 0 := rfl
  rw [UInt32.le_iff_toNat_le, ← UInt32.toNat_inj, toNat_unpinned]
  omega

theorem unpinned_evictable (hrefs : r.activeRefs = 0) :
    Evictable (unpinned r) ↔ r.pinCount ≤ 1 := by
  rw [← unpinned_pinCount]
  refine ⟨fun he => he.pinCount, fun h => ⟨hrefs, h, ?_⟩⟩
  exact if_pos h

theorem Tallied.evictsSafely_iff : s.EvictsSafely ↔
    ∀ inst r, s.fabric.residency inst = some r → Evictable r →
      s.pins inst = 0 ∧ ¬ s.fabric.Names inst := by
  constructor
  · intro h inst r hr he
    obtain ⟨-, hpins, hnames⟩ := h inst (evict_iff.mpr ⟨r, hr, he⟩)
    exact ⟨hpins, fun ⟨k, ar, har, ha, hi⟩ => hnames k ar har ha hi⟩
  · intro h inst hevict
    obtain ⟨r, hr, he⟩ := evict_iff.mp hevict
    obtain ⟨hpins, hnames⟩ := h inst r hr he
    exact ⟨⟨r, hr⟩, hpins, fun k ar har ha hi => hnames ⟨k, ar, har, ha, hi⟩⟩

theorem Tallied.pins_apply (hpin : op ≠ .pin inst) (hunpin : op ≠ .unpin inst) :
    (s.apply op).pins inst = s.pins inst := by
  cases op with
  | pin inst' => exact Function.update_of_ne (fun e => hpin (by rw [e])) _ _
  | unpin inst' => exact Function.update_of_ne (fun e => hunpin (by rw [e])) _ _
  | _ => rfl

theorem names_apply (h : (op.apply f).Names inst) : f.Names inst ∨
    ∃ id fence ar, op = .bindAuthority id fence ∧ (f.checkFence fence).authorized = true ∧
      (∀ held, f.activeFence = some held → held.adapter = id) ∧
      f.authorityRecord id = some ar ∧ ar.instanceId = inst := by
  obtain ⟨k, ar', har', ha', hi⟩ := h
  rcases active_cases har' ha' with ⟨id, fence, ar, rfl, rfl, hauth, hfree, har, rfl⟩ |
    ⟨ar, har, ha, hsame⟩
  · exact .inr ⟨id, fence, ar, rfl, hauth, hfree, har, hi⟩
  · exact .inl ⟨k, ar, har, ha, hsame.trans hi⟩

theorem createInstance_made {adapter : AdapterId} (worker : WorkerId) (boot : WorkerBootId)
    (device : DeviceId) (bytes : UInt64) (rng : Rng) (h : (f.adapter adapter).isSome) :
    (∃ r, (f.createInstance adapter worker boot device bytes rng).2.1.residency (drawn rng) =
        some r ∧ Evictable r) ∧
      ∃ ar, ar.active = false ∧
        (f.createInstance adapter worker boot device bytes rng).2.1.authority =
          f.authority.insert adapter.str ar := by
  obtain ⟨d, hd⟩ := Option.isSome_iff_exists.mp h
  rw [createInstance_some worker boot device bytes rng hd]
  exact ⟨⟨_, (Table.get_insert _ _ _ _).trans (if_pos rfl), rfl, rfl, rfl⟩, ⟨_, rfl, rfl⟩⟩

theorem guards_of_evictsSafely (hI : Unreferenced s.fabric) (h : (s.apply op).EvictsSafely) :
    op.Guards s := by
  rw [Tallied.evictsSafely_iff] at h
  cases op with
  | bindAuthority id fence =>
    intro hauth hfree ar r har hr
    by_contra hboth
    obtain ⟨hpins, hprot⟩ := not_or.mp hboth
    have he : Evictable r := ⟨hI _ r hr, not_not.mp hpins, by simpa using hprot⟩
    have hr' : ((Op.bindAuthority id fence).apply s.fabric).residency ar.instanceId = some r := by
      obtain ⟨_, _, _, hb⟩ := bindAuthority_frame s.fabric id fence
      simp only [Op.apply, hb]
      exact hr
    exact (h ar.instanceId r hr' he).2
      ⟨id.str, granted ar fence, bindAuthority_grants hauth hfree har, rfl, rfl⟩
  | unpin inst =>
    intro r hr hle
    have hr' : ((Op.unpin inst).apply s.fabric).residency inst = some (unpinned r) := by
      show (s.fabric.unpin inst).2.residency inst = _
      rw [unpin_eq, residency_changeResidency, if_pos rfl, hr]
      rfl
    obtain ⟨hpins, hnames⟩ := h inst _ hr' ((unpinned_evictable (hI inst r hr)).mpr hle)
    have hpins : s.pins inst - 1 = 0 := (Function.update_self inst _ s.pins).symm.trans hpins
    refine ⟨by omega, fun hn => hnames ?_⟩
    have hauthority : ((Op.unpin inst).apply s.fabric).authority = s.fabric.authority :=
      (Op.quiet_apply rfl s.fabric).authority
    obtain ⟨k, ar, har, ha, hi⟩ := hn
    exact ⟨k, ar, hauthority.symm ▸ har, ha, hi⟩
  | createInstance adapter worker boot device bytes rng =>
    intro hsome
    obtain ⟨⟨r, hr, he⟩, fresh, _, hauthority⟩ := createInstance_made worker boot device
      bytes rng hsome
    obtain ⟨hpins, hnames⟩ := h _ r hr he
    refine ⟨hpins, fun k ar har ha hi => ?_⟩
    by_contra hk
    refine hnames ⟨k, ar, ?_, ha, hi⟩
    show (s.fabric.createInstance adapter worker boot device bytes rng).2.1.authority[k]? = some ar
    rw [hauthority, Table.get_insert, if_neg (Ne.symm hk)]
    exact har
  | _ => trivial

theorem evictsSafely_of_guards (hI : Unreferenced s.fabric) (hs : s.EvictsSafely)
    (hg : op.Guards s) : (s.apply op).EvictsSafely := by
  rw [Tallied.evictsSafely_iff] at hs ⊢
  intro inst r' hr' he'
  rcases counters_cases hr' with
    ⟨hdraws, _⟩ | ⟨r, hr, ⟨hsame, hpin, hunpin⟩ | ⟨rfl, rfl⟩ | ⟨rfl, rfl⟩⟩
  · -- the instance has just been created
    cases op with
    | createInstance adapter worker boot device bytes rng =>
      obtain ⟨hsome, rfl⟩ := hdraws
      obtain ⟨hpins, hnamed⟩ := hg hsome
      refine ⟨hpins, ?_⟩
      rintro ⟨k, ar, har, ha, hi⟩
      obtain ⟨_, fresh, hina, hauthority⟩ := createInstance_made worker boot device
        bytes rng hsome
      have har : (s.fabric.createInstance adapter worker boot device bytes rng).2.1.authority[k]? =
        some ar := har
      rw [hauthority, Table.get_insert] at har
      by_cases hk : adapter.str = k
      · rw [if_pos hk] at har
        cases har
        rw [hina] at ha
        cases ha
      · rw [if_neg hk] at har
        exact hk (hnamed k ar har ha hi).symm
    | _ => cases hdraws
  · -- its counters are as they were, so only a bind can have made it active
    have he := hsame.evictable.mp he'
    obtain ⟨hpins, hnames⟩ := hs inst r hr he
    refine ⟨(Tallied.pins_apply hpin hunpin).trans hpins, fun hn => ?_⟩
    rcases names_apply hn with hn | ⟨id, fence, ar, rfl, hauth, hfree, har, rfl⟩
    · exact hnames hn
    · rcases hg hauth hfree ar r har hr with hne | hprot
      · exact hne he.pinCount
      · rw [he.protected_] at hprot
        cases hprot
  · exact nomatch he'.protected_
  · have hle := (unpinned_evictable (hI inst r hr)).mp he'
    obtain ⟨hpins, hnames⟩ := hg r hr hle
    refine ⟨?_, fun hn => ?_⟩
    · show Function.update s.pins inst (s.pins inst - 1) inst = 0
      rw [Function.update_self]
      omega
    · rcases names_apply hn with hn | ⟨_, _, _, hop, _⟩
      · exact hnames hn
      · cases hop

end Step

/-- A run evicts neither pinned nor active instances, in whichever of its states `evict` is called,
exactly when all its steps guard them. -/
theorem evict_safe_iff {f₀ : Fabric} {ops : List Op} (hfresh : Fresh f₀) :
    (∀ pre, pre <+: ops → (Tallied.after pre f₀).EvictsSafely) ↔
      ∀ pre op, pre ++ [op] <+: ops → op.Guards (Tallied.after pre f₀) := by
  have hsafe : Tallied.EvictsSafely { fabric := f₀ } := by
    rw [Tallied.evictsSafely_iff]
    intro inst r hr
    rw [hfresh.residency_none] at hr
    cases hr
  exact Run.exec_always_iff (I := fun s : Tallied => Unreferenced s.fabric)
    (P := Tallied.EvictsSafely) hfresh.unreferenced hsafe
    (fun op _ s hI => hI.apply op) fun op _ s hI hs =>
      ⟨guards_of_evictsSafely hI, evictsSafely_of_guards hI hs⟩

/-- The instance that `sampleOps` creates. -/
def boundInstance : AdapterInstanceId := drawn .instanceInit

/-- The instance is pinned before it is bound. -/
def pinnedOps : List Op :=
  sampleOps.take 3 ++ [.pin boundInstance, .bindAuthority sampleAdapter.id sampleFence]

theorem evict_safe_iff_sample : (Tallied.after pinnedOps .default).EvictsSafely := by
  refine (evict_safe_iff .default).mpr ?_ _ (List.prefix_refl _)
  have hinst : (run (pinnedOps.take 4) .default).authority[sampleAdapter.id.str]?.map
      (·.instanceId) = some boundInstance := by decide +kernel
  have hprot : ((run (pinnedOps.take 4) .default).residency boundInstance).map
      (·.protected_) = some true := by decide +kernel
  simp only [pinnedOps, sampleOps, List.take_succ_cons, List.take_zero, List.cons_append,
    List.nil_append, Tallied.after, Run.steps_cons_iff]
  refine ⟨trivial, trivial, fun _ => ⟨rfl, fun k ar har => ?_⟩, trivial, ?_, by simp⟩
  · have har : (∅ : StrMap AdapterAuthorityRecord)[k]? = some ar := har
    rw [ExtTreeMap.getElem?_empty] at har
    cases har
  · intro _ _ ar r har hr
    obtain ⟨ar', har', hi⟩ := Option.map_eq_some_iff.mp hinst
    obtain rfl : ar = ar' := Option.some.inj (har.symm.trans har')
    rw [hi] at hr
    obtain ⟨r', hr', hp⟩ := Option.map_eq_some_iff.mp hprot
    obtain rfl : r = r' := Option.some.inj (hr.symm.trans hr')
    exact .inr hp

/-- Once bound, the instance is active, and still evicted. -/
theorem evict_counterexample :
    ¬ ∀ f₀, Fresh f₀ → ∀ ops : List Op, (Tallied.after ops f₀).EvictsSafely := by
  intro h
  have hsafe := h .default .default sampleOps boundInstance (by decide +kernel)
  obtain ⟨ar, har, hboth⟩ := Option.map_eq_some_iff.mp (show
    ((Tallied.after sampleOps .default).fabric.authority[sampleAdapter.id.str]?.map
      fun ar => (ar.active, ar.instanceId)) = some (true, boundInstance) by decide +kernel)
  obtain ⟨hactive, hinst⟩ := Prod.ext_iff.mp hboth
  exact hsafe.2.2 _ ar har hactive hinst

/-! ## Counting in 32 bits -/

namespace Tallied

/-- The counter of each residency is the number of its pins. -/
def Counted (s : Tallied) : Prop :=
  ∀ inst r, s.fabric.residency inst = some r →
    r.pinCount.toNat = s.pins inst ∧ (r.protected_ = true ↔ 0 < s.pins inst)

end Tallied

/-- A pin finds fewer than `2 ^ 32 - 1` outstanding, and an id that is drawn has none. -/
def Op.Counts (s : Tallied) : Op → Prop
  | pin inst => (∃ r, s.fabric.residency inst = some r) → s.pins inst + 1 < 2 ^ 32
  | createInstance adapter _ _ _ _ rng =>
    (s.fabric.adapter adapter).isSome → s.pins (drawn rng) = 0
  | _ => True

theorem counted_apply_iff {s : Tallied} (hs : s.Counted) (op : Op) :
    (s.apply op).Counted ↔ op.Counts s := by
  constructor
  · intro h
    cases op with
    | pin inst =>
      rintro ⟨r, hr⟩
      have hr' : ((Op.pin inst).apply s.fabric).residency inst = some (pinned r) := by
        show (s.fabric.pin inst).2.residency inst = _
        rw [pin_eq, residency_changeResidency, if_pos rfl, hr]
        rfl
      have hcount : (pinned r).pinCount.toNat = s.pins inst + 1 :=
        (h inst _ hr').1.trans (Function.update_self inst _ s.pins)
      have hlt := (pinned r).pinCount.toNat_lt
      omega
    | createInstance adapter worker boot device bytes rng =>
      intro hsome
      obtain ⟨⟨r, hr, he⟩, -⟩ := createInstance_made worker boot device bytes rng hsome
      have hcount : r.pinCount.toNat = s.pins (drawn rng) := (h _ r hr).1
      rw [← hcount, he.pinCount]
      rfl
    | _ => trivial
  · intro hc inst r' hr'
    rcases counters_cases hr' with
      ⟨hdraws, he⟩ | ⟨r, hr, ⟨hsame, hpin, hunpin⟩ | ⟨rfl, rfl⟩ | ⟨rfl, rfl⟩⟩
    · cases op with
      | createInstance adapter worker boot device bytes rng =>
        obtain ⟨hsome, rfl⟩ := hdraws
        have hpins : ((s.apply (.createInstance adapter worker boot device bytes rng)).pins
          (drawn rng)) = 0 := hc hsome
        rw [hpins, he.pinCount, he.protected_]
        simp
      | _ => cases hdraws
    · rw [Tallied.pins_apply hpin hunpin, hsame.pinCount, hsame.protected_]
      exact hs inst r hr
    · obtain ⟨hcount, -⟩ := hs inst r hr
      have hroom := hc ⟨r, hr⟩
      have hpins : (s.apply (.pin inst)).pins inst = s.pins inst + 1 :=
        Function.update_self inst _ s.pins
      have hone : (1 : UInt32).toNat = 1 := rfl
      rw [hpins]
      refine ⟨?_, iff_of_true rfl (Nat.succ_pos _)⟩
      show (r.pinCount + 1).toNat = s.pins inst + 1
      rw [UInt32.toNat_add]
      omega
    · obtain ⟨hcount, hprot⟩ := hs inst r hr
      have hpins : (s.apply (.unpin inst)).pins inst = s.pins inst - 1 :=
        Function.update_self inst _ s.pins
      rw [hpins]
      refine ⟨by rw [toNat_unpinned, hcount], ?_⟩
      show (if (unpinned r).pinCount = 0 then false else r.protected_) = true ↔ _
      by_cases hzero : (unpinned r).pinCount = 0
      · have hlast := toNat_unpinned r
        rw [hzero, hcount] at hlast
        rw [if_pos hzero, ← hlast]
        simp
      · have hmore : (unpinned r).pinCount.toNat ≠ 0 := fun e => hzero (UInt32.toNat_inj.mp e)
        rw [toNat_unpinned, hcount] at hmore
        rw [if_neg hzero, hprot]
        omega

/-- The counters are exact along a run exactly when no pin is one too many, and no id is drawn that
has pins already. -/
theorem pins_counted_iff {f₀ : Fabric} {ops : List Op} (hfresh : Fresh f₀) :
    (∀ pre, pre <+: ops → (Tallied.after pre f₀).Counted) ↔
      ∀ pre op, pre ++ [op] <+: ops → op.Counts (Tallied.after pre f₀) := by
  have hcounted : Tallied.Counted { fabric := f₀ } := by
    intro inst r hr
    rw [hfresh.residency_none] at hr
    cases hr
  exact Run.exec_always_iff (I := fun _ => True) (P := Tallied.Counted) trivial hcounted
    (fun _ _ _ _ => trivial) fun op _ s _ hs => counted_apply_iff hs op

end Fabric

end AdapterFabric
