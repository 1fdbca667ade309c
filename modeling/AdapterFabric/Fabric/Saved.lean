import AdapterFabric.Fabric.Currency
import AdapterFabric.Fabric.Publishing
import AdapterFabric.Fabric.Recovery

/-!
# AdapterFabric.Fabric.Saved

Which Fabrics can be saved and loaded again. The reader has limits that the operations do not know.

* `loadable_iff`: a Fabric can be loaded exactly when its snapshot is well formed.
* `loadable_always_iff`: a run stays loadable exactly when each of its steps keeps within the
  reader's limits.
-/

namespace AdapterFabric

open Std

/-! ## The reader's limits -/

structure AdapterDescriptor.ShortStrings (d : AdapterDescriptor) : Prop where
  artifactDigest : Short d.artifactDigest
  name : Short d.name
  targets : ∀ t ∈ d.targets, Short t.name
  format : Short d.format
  dependencies : ∀ x ∈ d.dependencies, x.WellFormed
  capabilities : ∀ x ∈ d.capabilities, x.WellFormed
  constraints : ∀ x ∈ d.constraints, x.WellFormed
  provenance : d.provenance.WellFormed

/-- What `read_desc` demands of a descriptor and `register_adapter` does not. -/
structure AdapterDescriptor.WithinLimits (d : AdapterDescriptor) : Prop where
  kind : isKindOk d.kind = true
  targets : d.targets.length ≤ 100000
  shapes : ∀ t ∈ d.targets, t.shape.length ≤ 64
  dtype : isDtypeOk d.dtype = true
  formatVersion : d.formatVersion ≠ 0
  dependencies : d.dependencies.length ≤ 100000
  capabilities : d.capabilities.length ≤ 100000
  constraints : d.constraints.length ≤ 100000
  validation : isValidationOk d.validation = true

structure WorkerRecord.ShortStrings (w : WorkerRecord) : Prop where
  address : Short w.address
  capabilities : ∀ x ∈ w.capabilities, x.WellFormed

structure WorkerRecord.WithinLimits (w : WorkerRecord) : Prop where
  capabilities : w.capabilities.length ≤ 100000
  localAdapters : w.localAdapters.length ≤ 100000

theorem AdapterDescriptor.wellFormed_iff {d : AdapterDescriptor} (hshort : d.ShortStrings)
    {g : AdapterGeneration} (hg : g ≠ .none) :
    ({ d with generation := g } : AdapterDescriptor).WellFormed ↔ d.WithinLimits := by
  constructor
  · intro h
    exact {
      kind := h.kind
      targets := h.targets.count
      shapes := fun t ht => (h.targets.each t ht).shape
      dtype := h.dtype
      formatVersion := h.formatVersion
      dependencies := h.dependencies.count
      capabilities := h.capabilities.count
      constraints := h.constraints.count
      validation := h.validation }
  · intro h
    exact {
      artifactDigest := hshort.artifactDigest
      kind := h.kind
      name := hshort.name
      targets := ⟨h.targets, fun t ht => ⟨hshort.targets t ht, h.shapes t ht⟩⟩
      dtype := h.dtype
      format := hshort.format
      formatVersion := h.formatVersion
      dependencies := ⟨h.dependencies, hshort.dependencies⟩
      capabilities := ⟨h.capabilities, hshort.capabilities⟩
      constraints := ⟨h.constraints, hshort.constraints⟩
      provenance := hshort.provenance
      generation := hg
      validation := h.validation }

theorem WorkerRecord.wellFormed_iff {w : WorkerRecord} (hshort : w.ShortStrings) :
    w.WellFormed ↔ w.WithinLimits :=
  ⟨fun h => ⟨h.capabilities.count, h.localAdapters⟩,
    fun h => ⟨hshort.address, ⟨h.capabilities, hshort.capabilities⟩, h.localAdapters⟩⟩

theorem Bounded.perm {α : Type} {limit : Nat} {p : α → Prop} {as bs : List α} (h : as.Perm bs)
    (has : Bounded limit p bs) : Bounded limit p as :=
  ⟨h.length_eq ▸ has.count, fun a ha => has.each a (h.mem_iff.mp ha)⟩

namespace Fabric

/-- The snapshot can be written and read back, and a fresh Fabric that recovers it has it too. -/
def Loadable (f : Fabric) : Prop :=
  ∃ s, deserializeSnapshot (serializeSnapshot f.snapshot) = .ok s ∧
    ∀ g, Fresh g → (g.recover s).snapshot = f.snapshot

theorem Sorts.wellFormed {s s' : FabricSnapshot} (hsorts : Sorts s' s) (h : s.WellFormed) :
    s'.WellFormed where
  adapters := h.adapters.perm hsorts.adapters
  compositions := h.compositions.perm hsorts.compositions
  workers := h.workers.perm hsorts.workers
  adapters_nodup := (hsorts.adapters.map _).nodup_iff.mpr h.adapters_nodup
  compositions_nodup := (hsorts.compositions.map _).nodup_iff.mpr h.compositions_nodup
  workers_nodup := (hsorts.workers.map _).nodup_iff.mpr h.workers_nodup

theorem loadable_iff {f : Fabric} (hkeyed : f.TablesKeyed) :
    f.Loadable ↔ f.snapshot.WellFormed := by
  constructor
  · rintro ⟨s, hread, hsame⟩
    have hwf := wellFormed_of_deserialize hread
    rw [← hsame .default .default]
    exact (recover_sorts hwf _).wellFormed hwf
  · intro hwf
    exact ⟨_, deserialize_serialize hwf, fun g _ => hkeyed.recover_snapshot g⟩

/-- Keyed tables repeat no id, so only the limits are left. -/
theorem TablesKeyed.wellFormed_iff {f : Fabric} (hkeyed : f.TablesKeyed) :
    f.snapshot.WellFormed ↔ Bounded 100000 AdapterDescriptor.WellFormed f.adapters.values ∧
      Bounded 100000 Composition.WellFormed f.compositions.values ∧
      Bounded 100000 WorkerRecord.WellFormed f.workers.values := by
  constructor
  · intro h
    exact ⟨h.adapters, h.compositions, h.workers⟩
  · rintro ⟨adapters, compositions, workers⟩
    exact {
      adapters, compositions, workers
      adapters_nodup := nodup_str_iff.mp hkeyed.adapters.values_nodup
      compositions_nodup := nodup_str_iff.mp hkeyed.compositions.values_nodup
      workers_nodup := nodup_str_iff.mp hkeyed.workers.values_nodup }

/-! ## Tables within limits -/

/-- The table has the key already, or fewer entries than the reader takes. -/
def Room {α : Type} (t : StrMap α) (k : Bytes) : Prop := k ∈ t ∨ t.size < 100000

section Tables

variable {α : Type} {t : StrMap α} {p : α → Prop}

theorem bounded_empty : Bounded 100000 p (∅ : StrMap α).values := by
  refine ⟨?_, fun a ha => ?_⟩
  · rw [Table.length_values, ExtTreeMap.size_empty]
    exact Nat.zero_le _
  · obtain ⟨k, hk⟩ := Table.mem_values.mp ha
    rw [ExtTreeMap.getElem?_empty] at hk
    cases hk

theorem bounded_insert (h : Bounded 100000 p t.values) {k : Bytes} {a : α} :
    Bounded 100000 p (t.insert k a).values ↔ p a ∧ Room t k := by
  have hcount : t.size ≤ 100000 := by
    rw [← Table.length_values]
    exact h.count
  have hsize : (t.insert k a).size = if k ∈ t then t.size else t.size + 1 := by
    rw [ExtTreeMap.size_insert]
    exact if_congr ExtTreeMap.contains_iff_mem rfl rfl
  constructor
  · intro h'
    refine ⟨h'.each a (Table.mem_values.mpr ⟨k, by rw [Table.get_insert, if_pos rfl]⟩), ?_⟩
    have hcount' := h'.count
    rw [Table.length_values, hsize] at hcount'
    by_cases hmem : k ∈ t
    · exact .inl hmem
    · rw [if_neg hmem] at hcount'
      exact .inr (by omega)
  · rintro ⟨hp, hroom⟩
    refine ⟨?_, fun b hb => ?_⟩
    · rw [Table.length_values, hsize]
      by_cases hmem : k ∈ t
      · rw [if_pos hmem]
        exact hcount
      · rw [if_neg hmem]
        have := hroom.resolve_left hmem
        omega
    · obtain ⟨k', hk'⟩ := Table.mem_values.mp hb
      rcases Table.of_insert hk' with ⟨_, rfl⟩ | hk'
      · exact hp
      · exact h.each b (Table.mem_values.mpr ⟨k', hk'⟩)

theorem bounded_modify {g : α → α} (hg : ∀ a, p a → p (g a)) (h : Bounded 100000 p t.values)
    (k : Bytes) : Bounded 100000 p (t.modify k g).values := by
  refine ⟨?_, fun b hb => ?_⟩
  · rw [Table.length_values, ExtTreeMap.size_modify, ← Table.length_values]
    exact h.count
  · obtain ⟨k', hk'⟩ := Table.mem_values.mp hb
    rcases Table.of_modify hk' with ⟨_, a, ha, rfl⟩ | hk'
    · exact hg a (h.each a (Table.mem_values.mpr ⟨_, ha⟩))
    · exact h.each b (Table.mem_values.mpr ⟨k', hk'⟩)

theorem length_le_size {β : Type} {ks : List β} {text : β → Bytes} (hnodup : (ks.map text).Nodup)
    (hmem : ∀ k ∈ ks, text k ∈ t) : ks.length ≤ t.size := by
  rw [← ExtTreeMap.length_keys, ← List.length_map (f := text)]
  refine (hnodup.subperm fun k hk => ?_).length_le
  obtain ⟨b, hb, rfl⟩ := List.mem_map.mp hk
  exact ExtTreeMap.mem_keys.mpr (hmem b hb)

end Tables

/-! ## Operations within limits -/

/-- The strings that the operation leaves in a snapshot fit their length prefix. -/
def Op.ShortStrings : Op → Prop
  | .registerAdapter d => d.ShortStrings
  | .publishComposition _ policy _ => Short policy
  | .registerWorker rec => rec.ShortStrings
  | _ => True

/-- What the operation stores is within the reader's limits, and the table it stores it in has room
for it. -/
def Op.Saves (f : Fabric) : Op → Prop
  | .registerAdapter d => Registrable d → d.WithinLimits ∧ Room f.adapters d.id.str
  | .publishComposition ordered policy rng =>
    (∃ e, (f.publishComposition ordered policy rng).1 = .error e) ∨
      Room f.compositions (Id.generate rng : CompositionId × Rng).1.str
  | .registerWorker rec => rec.WithinLimits ∧ Room f.workers rec.id.str
  | _ => True

/-- What holds of every Fabric on its way to a snapshot: ids are keys, and the counters have left
none behind. -/
structure Counting (f : Fabric) : Prop where
  keyed : f.TablesKeyed
  nextAdapterGen : f.nextAdapterGen ≠ .none
  nextCompositionGen : f.nextCompositionGen ≠ .none

theorem next_ne_none {tag : GenTag} {g : Generation tag} : g.next ≠ .none := by
  intro h
  have hnext := g.toNat_next
  rw [h] at hnext
  have hzero : (Generation.none : Generation tag).value.toNat = 0 := rfl
  rw [hzero] at hnext
  split at hnext <;> omega

/-- An operation that stores in no saved table leaves them and their counters alone. -/
theorem saved_frame {op : Op} (hreg : ∀ d, op ≠ .registerAdapter d)
    (hpub : ∀ ordered policy rng, op ≠ .publishComposition ordered policy rng)
    (hworker : ∀ rec, op ≠ .registerWorker rec) (hdown : ∀ id, op ≠ .onWorkerDown id)
    (hrec : op.isRecover = false) (f : Fabric) :
    (op.apply f).adapters = f.adapters ∧ (op.apply f).compositions = f.compositions ∧
      (op.apply f).workers = f.workers ∧ (op.apply f).nextAdapterGen = f.nextAdapterGen ∧
      (op.apply f).nextCompositionGen = f.nextCompositionGen := by
  obtain ⟨hc, hnc⟩ := compositions_frame hpub hrec f
  have hw := workers_frame hworker hdown hrec f
  by_cases hepoch : op = .advanceEpoch
  · subst hepoch
    exact ⟨rfl, hc, hw, rfl, hnc⟩
  · obtain ⟨_, hna, ha⟩ := registry_frame hreg hepoch hrec f
    exact ⟨ha, hc, hw, hna, hnc⟩

theorem counting_step {op : Op} (hrec : op.isRecover = false) {f : Fabric} (h : f.Counting) :
    (op.apply f).Counting := by
  obtain ⟨⟨adapters, compositions, workers⟩, hadapter, hcomposition⟩ := h
  by_cases hreg : ∃ d, op = .registerAdapter d
  · obtain ⟨d, rfl⟩ := hreg
    rcases registerAdapter_cases f d with ⟨_, e, he⟩ | ⟨_, he⟩
    · simp only [Op.apply, he]
      exact ⟨⟨adapters, compositions, workers⟩, hadapter, hcomposition⟩
    · simp only [Op.apply, he]
      exact ⟨⟨adapters.insert { d with generation := f.nextAdapterGen }, compositions, workers⟩,
        next_ne_none, hcomposition⟩
  by_cases hpub : ∃ ordered policy rng, op = .publishComposition ordered policy rng
  · obtain ⟨ordered, policy, rng, rfl⟩ := hpub
    rcases publish_cases f ordered policy rng with
      ⟨e, _, he⟩ | ⟨c, _, _, he⟩
    · simp only [Op.apply, he]
      exact ⟨⟨adapters, compositions, workers⟩, hadapter, hcomposition⟩
    · simp only [Op.apply, he]
      exact ⟨⟨adapters, compositions.insert c, workers⟩, hadapter, next_ne_none⟩
  by_cases hworker : ∃ rec, op = .registerWorker rec
  · obtain ⟨rec, rfl⟩ := hworker
    exact ⟨⟨adapters, compositions, workers.insert rec⟩, hadapter, hcomposition⟩
  by_cases hdown : ∃ id, op = .onWorkerDown id
  · obtain ⟨id, rfl⟩ := hdown
    have hworkers := workers.modify (f := fun w => { w with connected := false })
      (fun _ => rfl) id.str
    exact ⟨⟨adapters, compositions, hworkers⟩, hadapter, hcomposition⟩
  obtain ⟨ha, hc, hw, hna, hnc⟩ := saved_frame (fun d hd => hreg ⟨d, hd⟩)
    (fun ordered policy rng hp => hpub ⟨ordered, policy, rng, hp⟩)
    (fun rec hr => hworker ⟨rec, hr⟩) (fun id hi => hdown ⟨id, hi⟩) hrec f
  exact ⟨⟨by rwa [ha], by rwa [hc], by rwa [hw]⟩, by rwa [hna], by rwa [hnc]⟩

theorem decimal_length {n k : Nat} (hk : 0 < k) (h : n < 10 ^ k) : (decimal n).length ≤ k := by
  rw [decimal, List.length_map]
  exact (Nat.length_toDigits_le_iff (by omega) hk).mpr h

/-- Whatever is published is well formed, when the registry it is made from is within limits. -/
theorem Publishes.wellFormed {f : Fabric} {policy : Bytes} {rng : Rng} {c : Composition}
    (h : f.Publishes policy rng c) (hcounting : f.Counting) (hpolicy : Short policy)
    (hsize : f.adapters.size ≤ 100000) : c.WellFormed := by
  have hcount : c.members.length ≤ 100000 := by
    refine Nat.le_trans (length_le_size (t := f.adapters) (nodup_str_iff.mpr h.nodup) ?_) hsize
    intro m hm
    obtain ⟨id, d, hd, hid⟩ := h.registered m hm
    have hkey : d.id.str = id.str := hcounting.keyed.adapters _ d hd
    rw [Fabric.adapter] at hd
    rw [ExtTreeMap.mem_iff_isSome_getElem?, ← hid, hkey, hd]
    rfl
  have hdigest : c.digest.length = 16 := by
    rw [h.digest, CompositionBuilder.computeDigest_length]
  exact {
    members := ⟨hcount, h.generations⟩
    nonempty := h.nonempty
    generation := by rw [h.generation]; exact hcounting.nextCompositionGen
    policy := by rw [h.policy]; exact hpolicy
    digest := by unfold Short; omega
    validationSummary := by
      have hdecimal : (decimal c.members.length).length ≤ 6 :=
        decimal_length (by omega) (by omega)
      have htexts : (ascii "members=").length = 8 ∧ (ascii ", digest=").length = 9 := by decide
      rw [h.validationSummary]
      unfold Short
      simp only [List.length_append, htexts, hdigest]
      omega
    total := by rw [h.total, memberTotal_toNat]
    digest_eq := h.digest }

theorem wellFormed_step {op : Op} (hrec : op.isRecover = false) (hshort : op.ShortStrings)
    {f : Fabric} (hcounting : f.Counting) (h : f.snapshot.WellFormed) :
    (op.apply f).snapshot.WellFormed ↔ op.Saves f := by
  have hcounting' := counting_step hrec hcounting
  obtain ⟨adapters, compositions, workers⟩ := hcounting.keyed.wellFormed_iff.mp h
  rw [hcounting'.keyed.wellFormed_iff]
  by_cases hreg : ∃ d, op = .registerAdapter d
  · obtain ⟨d, rfl⟩ := hreg
    rcases registerAdapter_cases f d with ⟨hd, e, he⟩ | ⟨hd, he⟩
    · simp only [Op.apply, he]
      exact ⟨fun _ hd' => absurd hd' hd, fun _ => ⟨adapters, compositions, workers⟩⟩
    · simp only [Op.apply, he]
      rw [bounded_insert adapters, AdapterDescriptor.wellFormed_iff hshort hcounting.nextAdapterGen]
      exact ⟨fun h _ => h.1, fun h => ⟨h hd, compositions, workers⟩⟩
  by_cases hpub : ∃ ordered policy rng, op = .publishComposition ordered policy rng
  · obtain ⟨ordered, policy, rng, rfl⟩ := hpub
    rcases publish_cases f ordered policy rng with ⟨e, herr, he⟩ | ⟨c, hc, hok, he⟩
    · simp only [Op.apply, he]
      exact ⟨fun _ => .inl ⟨e, herr⟩, fun _ => ⟨adapters, compositions, workers⟩⟩
    · have hsize : f.adapters.size ≤ 100000 := by
        rw [← Table.length_values]
        exact adapters.count
      simp only [Op.apply, he]
      rw [bounded_insert compositions, hc.id]
      constructor
      · rintro ⟨_, ⟨_, hroom⟩, _⟩
        exact .inr hroom
      · rintro (⟨e, herr⟩ | hroom)
        · rw [hok] at herr
          cases herr
        · exact ⟨adapters, ⟨hc.wellFormed hcounting hshort hsize, hroom⟩, workers⟩
  by_cases hworker : ∃ rec, op = .registerWorker rec
  · obtain ⟨rec, rfl⟩ := hworker
    show _ ∧ _ ∧ Bounded _ _ (f.workers.insert rec.id.str rec).values ↔ _
    rw [bounded_insert workers, WorkerRecord.wellFormed_iff hshort]
    exact ⟨fun h => h.2.2, fun h => ⟨adapters, compositions, h⟩⟩
  have hsaves : op.Saves f := by
    cases op with
    | registerAdapter d => exact absurd ⟨d, rfl⟩ hreg
    | publishComposition ordered policy rng => exact absurd ⟨ordered, policy, rng, rfl⟩ hpub
    | registerWorker rec => exact absurd ⟨rec, rfl⟩ hworker
    | _ => trivial
  refine ⟨fun _ => hsaves, fun _ => ?_⟩
  by_cases hdown : ∃ id, op = .onWorkerDown id
  · obtain ⟨id, rfl⟩ := hdown
    have hworkers := bounded_modify (g := fun w => { w with connected := false })
      (fun _ hw => ⟨hw.address, hw.capabilities, hw.localAdapters⟩) workers id.str
    exact ⟨adapters, compositions, hworkers⟩
  obtain ⟨ha, hc, hw, _, _⟩ := saved_frame (fun d hd => hreg ⟨d, hd⟩)
    (fun ordered policy rng hp => hpub ⟨ordered, policy, rng, hp⟩)
    (fun rec hr => hworker ⟨rec, hr⟩) (fun id hi => hdown ⟨id, hi⟩) hrec f
  rw [ha, hc, hw]
  exact ⟨adapters, compositions, workers⟩

/-! ## Runs -/

theorem Fresh.counting {f : Fabric} (h : Fresh f) : f.Counting := by
  have hadapter : (⟨1⟩ : AdapterGeneration) ≠ .none := by decide
  have hcomposition : (⟨1⟩ : CompositionGeneration) ≠ .none := by decide
  cases h <;>
    exact ⟨⟨Table.keyed_empty, Table.keyed_empty, Table.keyed_empty⟩, hadapter, hcomposition⟩

theorem Fresh.wellFormed {f : Fabric} (h : Fresh f) : f.snapshot.WellFormed := by
  rw [h.counting.keyed.wellFormed_iff]
  cases h <;> exact ⟨bounded_empty, bounded_empty, bounded_empty⟩

theorem run_counting {f₀ : Fabric} (hfresh : Fresh f₀) {ops : List Op}
    (hops : ∀ op ∈ ops, op.isRecover = false) : (run ops f₀).Counting :=
  Run.exec_preserves (P := Counting) (fun op ho _ h => counting_step (hops op ho) h)
    hfresh.counting

/-- Without recovery, every state of a run can be saved and loaded exactly when every step of it
keeps within the reader's limits. -/
theorem loadable_always_iff {f₀ : Fabric} (hfresh : Fresh f₀) {ops : List Op}
    (hops : ∀ op ∈ ops, op.isRecover = false ∧ op.ShortStrings) :
    (∀ pre, pre <+: ops → (run pre f₀).Loadable) ↔
      ∀ pre op, pre ++ [op] <+: ops → op.Saves (run pre f₀) := by
  refine Run.exec_always_iff (I := Counting) (P := Loadable) (C := Op.Saves) hfresh.counting
    ((loadable_iff hfresh.counting.keyed).mpr hfresh.wellFormed)
    (fun op ho _ h => counting_step (hops op ho).1 h) fun op ho f h hl => ?_
  obtain ⟨hrec, hshort⟩ := hops op ho
  rw [loadable_iff (counting_step hrec h).keyed]
  exact wellFormed_step hrec hshort h ((loadable_iff h.keyed).mp hl)

theorem sampleAdapter_shortStrings : sampleAdapter.ShortStrings where
  artifactDigest := by decide
  name := by decide
  targets := by simp [sampleAdapter]
  format := by decide
  dependencies := by simp [sampleAdapter]
  capabilities := by simp [sampleAdapter]
  constraints := by simp [sampleAdapter]
  provenance := ⟨by decide, by decide, by decide, by decide, by decide⟩

/-- An adapter and a worker are registered, an instance is bound, and a composition published. -/
def savedOps : List Op :=
  sampleOps ++ [.publishComposition [sampleAdapter.id] (ascii "additive") .instanceInit]

theorem savedOps_saves :
    ∀ pre op, pre ++ [op] <+: savedOps → op.Saves (run pre .default) := by
  have hadapter : (Op.registerAdapter sampleAdapter).Saves .default :=
    fun _ => ⟨by constructor <;> decide, .inr (by decide +kernel)⟩
  have hworker : (Op.registerWorker sampleWorker).Saves (run (savedOps.take 1) .default) :=
    ⟨by constructor <;> decide, .inr (by decide +kernel)⟩
  have hpublish : (Op.publishComposition [sampleAdapter.id] (ascii "additive") .instanceInit).Saves
      (run sampleOps .default) := .inr (.inr (by decide +kernel))
  simp only [savedOps, sampleOps, List.cons_append, List.nil_append, run, Run.steps_cons_iff]
  exact ⟨hadapter, hworker, trivial, trivial, hpublish, by simp⟩

theorem loadable_always_iff_sample :
    (run savedOps .default).snapshot.compositions.length = 1 ∧
      (run savedOps .default).Loadable := by
  have hworker : sampleWorker.ShortStrings := ⟨by decide, by simp [sampleWorker]⟩
  have hpolicy : Short (ascii "additive") := by decide
  have hops : ∀ op ∈ savedOps, op.isRecover = false ∧ op.ShortStrings := by
    simp [savedOps, sampleOps, Op.isRecover, Op.ShortStrings, sampleAdapter_shortStrings, hworker,
      hpolicy]
  exact ⟨by decide +kernel,
    (loadable_always_iff .default hops).mpr savedOps_saves savedOps (List.prefix_refl _)⟩

def unreadableAdapter : AdapterDescriptor := { sampleAdapter with formatVersion := 0 }

/-- `register_adapter` takes a descriptor with the format version that the reader refuses. -/
theorem loadable_counterexample :
    ¬ (run [.registerAdapter unreadableAdapter] .default).Loadable := by
  intro h
  have hcounting : (run [.registerAdapter unreadableAdapter] .default).Counting :=
    run_counting .default (by simp [Op.isRecover])
  have hwf := (loadable_iff hcounting.keyed).mp h
  have hmem : { unreadableAdapter with generation := ⟨1⟩ } ∈
      (run [.registerAdapter unreadableAdapter] .default).snapshot.adapters := by decide +kernel
  exact (hwf.adapters.each _ hmem).formatVersion rfl

end Fabric

end AdapterFabric
