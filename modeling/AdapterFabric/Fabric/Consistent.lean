import AdapterFabric.Fabric.Acceptance
import AdapterFabric.Fabric.Recovery

/-!
# AdapterFabric.Fabric.Consistent

Compositions in snapshots. The decoder checks their accounting and their digest, and takes their
members as they are; `CompositionBuilder::add` checks members one by one.

`consistent_iff`: an accepted snapshot has consistent compositions exactly when `add` has nothing
against the adapters that come back with it, one after another.
-/

namespace AdapterFabric

/-- One of the enumerators of `AdapterKind`. -/
def AdapterKind.Declared (k : AdapterKind) : Prop :=
  k ∈ [generic, lora, fullFinetune, prefixTuning, custom]

/-- The composition fits the adapters of the snapshot. -/
structure FabricSnapshot.Consistent (s : FabricSnapshot) (c : Composition) : Prop where
  distinct : (c.members.map (·.adapterId)).Nodup
  kinds : ∀ m ∈ c.members, m.kind.Declared
  registered : ∀ m ∈ c.members, m.adapterId ∈ s.adapters.map (·.id)
  total : (c.members.map (·.memoryBytes.toNat)).sum = c.totalMemoryBytes.toNat
  base : ∀ m ∈ c.members, ∀ d ∈ s.adapters, d.id = m.adapterId → m.generation = d.generation →
    d.baseModel = c.baseModel ∧ d.baseModelRevision = c.baseModelRevision

/-! ## What the builder says to the adapters that come back -/

namespace CompositionBuilder

/-- The error of `add` for an adapter that it has already. -/
def duplicateMember : Error := ⟨.invalidComposition, ascii "duplicate adapter member"⟩

theorem any_member_iff {b : CompositionBuilder} {id : AdapterId} :
    b.members.any (·.adapterId == id) = true ↔ id ∈ b.members.map (·.adapterId) := by
  simp only [List.any_eq_true, beq_iff_eq, List.mem_map]

theorem add_cases (b : CompositionBuilder) (d : AdapterDescriptor) :
    (d.id ∈ b.members.map (·.adapterId) ∧ b.add d = .error duplicateMember) ∨
    (d.id ∉ b.members.map (·.adapterId) ∧ b.Fits d ∧ b.add d = .ok (b.extend [d])) ∨
    (d.id ∉ b.members.map (·.adapterId) ∧ ¬ b.Fits d ∧
      ∃ e, b.add d = .error e ∧ e ≠ duplicateMember) := by
  by_cases hnew : d.id ∉ b.members.map (·.adapterId)
  · by_cases hfits : b.Fits d
    · exact .inr (.inl ⟨hnew, hfits, add_eq_ok_iff.mpr ⟨hnew, hfits, rfl⟩⟩)
    refine .inr (.inr ⟨hnew, hfits, ?_⟩)
    unfold add
    rw [if_neg (mt any_member_iff.mp hnew)]
    by_cases hgen : d.generation.isNone = true
    · rw [if_pos hgen]
      exact ⟨_, rfl, by decide +kernel⟩
    by_cases hbase : d.baseModel ≠ b.base
    · rw [if_neg hgen, if_pos hbase]
      exact ⟨_, rfl, by decide +kernel⟩
    by_cases hrev : d.baseModelRevision ≠ b.rev
    · rw [if_neg hgen, if_neg hbase, if_pos hrev]
      exact ⟨_, rfl, by decide +kernel⟩
    exact absurd ⟨fun hn => hgen (Generation.isNone_iff.mpr hn), not_not.mp hbase,
      not_not.mp hrev⟩ hfits
  · refine .inl ⟨not_not.mp hnew, ?_⟩
    unfold add
    rw [if_pos (any_member_iff.mpr (not_not.mp hnew))]
    rfl

end CompositionBuilder

/-- The builder of the composition when it has these members. -/
def Composition.builder (c : Composition) (members : List CompositionMember) :
    CompositionBuilder where
  base := c.baseModel
  rev := c.baseModelRevision
  policy := c.policy
  gen := c.generation
  members

/-- The adapter of `m` comes back with the snapshot, and after the members `before` the builder
takes it. It may refuse one that is not at the generation of `m` any more, if not as a duplicate. -/
def Readds (s : FabricSnapshot) (c : Composition) (before : List CompositionMember)
    (m : CompositionMember) : Prop :=
  ∃ d, (Fabric.default.recover s).adapter m.adapterId = some d ∧
    ∀ e, (c.builder before).add d = .error e →
      e ≠ CompositionBuilder.duplicateMember ∧ d.generation ≠ m.generation

/-- The builder has nothing against the members, one after another, their kinds pass the check that
adapters have to pass, and their memory adds up within 64 bits. -/
structure Buildable (s : FabricSnapshot) (c : Composition) : Prop where
  readds : ∀ before m after, c.members = before ++ m :: after → Readds s c before m
  kinds : ∀ m ∈ c.members, isKindOk m.kind = true
  fits : (c.members.map (·.memoryBytes.toNat)).sum < 2 ^ 64

section Build

variable {s : FabricSnapshot} {c : Composition}

/-- Recovery brings the adapters of the snapshot back, and no others. -/
theorem adapter_recover_iff (hnodup : (s.adapters.map (·.id)).Nodup) {f : Fabric} {id : AdapterId}
    {d : AdapterDescriptor} :
    (f.recover s).adapter id = some d ↔ d ∈ s.adapters ∧ d.id = id := by
  show (Table.insertAll (fun d : AdapterDescriptor => d.id.str) s.adapters :
    StrMap _)[id.str]? = some d ↔ _
  rw [Table.get_insertAll (nodup_str_iff.mpr hnodup), Id.str_eq_iff]

theorem nodup_map_iff {α β : Type} {f : α → β} {l : List α} :
    (l.map f).Nodup ↔ ∀ before a after, l = before ++ a :: after → f a ∉ before.map f := by
  constructor
  · rintro h before a after rfl hmem
    rw [List.map_append, List.map_cons] at h
    exact (List.nodup_append.mp h).2.2 _ hmem _ List.mem_cons_self rfl
  · induction l using List.reverseRecOn with
    | nil => exact fun _ => List.nodup_nil
    | append_singleton l a ih =>
      intro h
      have hl : (l.map f).Nodup := ih fun before b after hsplit =>
        h before b (after ++ [a]) (by rw [hsplit, List.append_assoc, List.cons_append])
      rw [List.map_append, List.map_singleton]
      refine List.nodup_append.mpr ⟨hl, List.nodup_singleton _, ?_⟩
      rintro b hb b' hb' rfl
      rw [List.mem_singleton.mp hb'] at hb
      exact h l a [] rfl hb

/-- The builder has nothing against a member that is new, and whose adapter has the base model of
the composition if it is still the one of the member. -/
theorem readds_iff (hnodup : (s.adapters.map (·.id)).Nodup) {before : List CompositionMember}
    {m : CompositionMember} (hgen : m.generation ≠ .none) :
    Readds s c before m ↔ m.adapterId ∈ s.adapters.map (·.id) ∧
      m.adapterId ∉ before.map (·.adapterId) ∧
      ∀ d ∈ s.adapters, d.id = m.adapterId → m.generation = d.generation →
        d.baseModel = c.baseModel ∧ d.baseModelRevision = c.baseModelRevision := by
  constructor
  · rintro ⟨d, hd, hadd⟩
    obtain ⟨hmem, hid⟩ := (adapter_recover_iff hnodup).mp hd
    refine ⟨List.mem_map.mpr ⟨d, hmem, hid⟩, ?_, fun d' hd' hid' hgen' => ?_⟩
    · rcases (c.builder before).add_cases d with ⟨_, herr⟩ | ⟨hnew, _⟩ | ⟨hnew, _⟩
      · exact absurd rfl (hadd _ herr).1
      · rwa [hid] at hnew
      · rwa [hid] at hnew
    · obtain rfl : d' = d := List.inj_on_of_nodup_map hnodup hd' hmem (hid'.trans hid.symm)
      rcases (c.builder before).add_cases d' with ⟨_, herr⟩ | ⟨_, hfits, _⟩ | ⟨_, _, e, herr, _⟩
      · exact absurd rfl (hadd _ herr).1
      · exact ⟨hfits.base, hfits.rev⟩
      · exact absurd hgen'.symm (hadd e herr).2
  · rintro ⟨hreg, hnew, hbase⟩
    obtain ⟨d, hmem, hid⟩ := List.mem_map.mp hreg
    refine ⟨d, (adapter_recover_iff hnodup).mpr ⟨hmem, hid⟩, fun e he => ?_⟩
    rcases (c.builder before).add_cases d with ⟨hdup, _⟩ | ⟨_, _, hok⟩ | ⟨_, hfits, e', herr, hne⟩
    · rw [hid] at hdup
      exact absurd hdup hnew
    · rw [hok] at he
      cases he
    · obtain rfl : e' = e := Except.error.inj (herr.symm.trans he)
      refine ⟨hne, fun hsame => hfits ?_⟩
      obtain ⟨hb, hr⟩ := hbase d hmem hid hsame.symm
      exact ⟨by rw [hsame]; exact hgen, hb, hr⟩

theorem declared_iff {k : AdapterKind} : k.Declared ↔ isKindOk k = true := by
  simp [AdapterKind.Declared, isKindOk, or_assoc]

theorem consistent_iff_buildable (h : s.WellFormed) (hc : c ∈ s.compositions) :
    s.Consistent c ↔ Buildable s c := by
  have hwf := h.compositions.each c hc
  have hlt : c.totalMemoryBytes.toNat < 2 ^ 64 := c.totalMemoryBytes.toNat_lt
  have htotal := hwf.total
  have hreadds {before : List CompositionMember} {m : CompositionMember} (hm : m ∈ c.members) :
      Readds s c before m ↔ _ := readds_iff h.adapters_nodup (hwf.members.each m hm)
  constructor
  · intro hcons
    refine ⟨fun before m after hsplit => ?_, fun m hm => declared_iff.mp (hcons.kinds m hm), ?_⟩
    · have hm : m ∈ c.members := by rw [hsplit]; simp
      exact (hreadds hm).mpr ⟨hcons.registered m hm,
        nodup_map_iff.mp hcons.distinct before m after hsplit, hcons.base m hm⟩
    · rw [hcons.total]
      exact hlt
  · intro hbuild
    have heach : ∀ m ∈ c.members, ∃ before, Readds s c before m := by
      intro m hm
      obtain ⟨before, after, hsplit⟩ := List.append_of_mem hm
      exact ⟨before, hbuild.readds before m after hsplit⟩
    have hsum := hbuild.fits
    exact {
      distinct := nodup_map_iff.mpr fun before m after hsplit =>
        ((hreadds (by rw [hsplit]; simp)).mp (hbuild.readds before m after hsplit)).2.1
      kinds := fun m hm => declared_iff.mpr (hbuild.kinds m hm)
      registered := fun m hm => (heach m hm).elim fun _ hadd => ((hreadds hm).mp hadd).1
      total := by omega
      base := fun m hm => (heach m hm).elim fun _ hadd => ((hreadds hm).mp hadd).2.2 }

end Build

/-- The sample snapshot without its adapter. -/
def danglingSnapshot : FabricSnapshot := { sampleSnapshot with adapters := [] }

end AdapterFabric
