import AdapterFabric.Fabric.Step

/-!
# AdapterFabric.Fabric.Publishing

What `publish_composition` publishes: a composition of registered adapters without repetition, whose
accounting and digest are those of its members.

* `Built`: what every `add` keeps of the builder.
* `publish_cases`: a publish fails and changes nothing, or stores such a composition.
-/

namespace AdapterFabric

open Std

namespace CompositionBuilder

/-- What `add` keeps of a descriptor. -/
def memberOf (d : AdapterDescriptor) : CompositionMember :=
  ⟨d.id, d.revision, d.generation, d.memoryBytes, d.kind⟩

theorem add_ok {b b' : CompositionBuilder} {d : AdapterDescriptor} (h : b.add d = .ok b') :
    d.id ∉ b.members.map (·.adapterId) ∧ d.generation ≠ .none ∧ d.baseModel = b.base ∧
      d.baseModelRevision = b.rev ∧
      b' = { b with
        members := b.members ++ [memberOf d]
        descriptors := b.descriptors ++ [d] } := by
  unfold add at h
  by_cases h1 : b.members.any (·.adapterId == d.id) = true
  · rw [if_pos h1] at h; cases h
  rw [if_neg h1] at h
  by_cases h2 : d.generation.isNone = true
  · rw [if_pos h2] at h; cases h
  rw [if_neg h2] at h
  by_cases h3 : d.baseModel ≠ b.base
  · rw [if_pos h3] at h; cases h
  rw [if_neg h3] at h
  by_cases h4 : d.baseModelRevision ≠ b.rev
  · rw [if_pos h4] at h; cases h
  rw [if_neg h4] at h
  refine ⟨fun hmem => h1 ?_, fun hn => h2 (Generation.isNone_iff.mpr hn), not_not.mp h3,
    not_not.mp h4, (Except.ok.inj h).symm⟩
  obtain ⟨m, hm, hid⟩ := List.mem_map.mp hmem
  exact List.any_eq_true.mpr ⟨m, hm, beq_iff_eq.mpr hid⟩

theorem add_eq_ok {b : CompositionBuilder} {d : AdapterDescriptor}
    (hnew : d.id ∉ b.members.map (·.adapterId)) (hgen : d.generation ≠ .none)
    (hbase : d.baseModel = b.base) (hrev : d.baseModelRevision = b.rev) :
    b.add d = .ok { b with
      members := b.members ++ [memberOf d]
      descriptors := b.descriptors ++ [d] } := by
  unfold add
  have hnew' : ¬ b.members.any (·.adapterId == d.id) = true := by
    intro hany
    obtain ⟨m, hm, hid⟩ := List.any_eq_true.mp hany
    exact hnew (List.mem_map.mpr ⟨m, hm, beq_iff_eq.mp hid⟩)
  rw [if_neg hnew', if_neg fun hn => hgen (Generation.isNone_iff.mp hn),
    if_neg (not_not.mpr hbase), if_neg (not_not.mpr hrev)]
  rfl

/-- The members are those of the descriptors, none of them twice, all of them at a generation. -/
structure Built (b : CompositionBuilder) : Prop where
  members : b.members = b.descriptors.map memberOf
  nodup : (b.members.map (·.adapterId)).Nodup
  generations : ∀ m ∈ b.members, m.generation ≠ .none

theorem Built.add {b b' : CompositionBuilder} {d : AdapterDescriptor} (hb : b.Built)
    (h : b.add d = .ok b') : b'.Built := by
  obtain ⟨hnew, hgen, _, _, rfl⟩ := add_ok h
  refine ⟨?_, ?_, ?_⟩
  · simp only [hb.members, List.map_append, List.map_cons, List.map_nil]
  · simp only [List.map_append, List.map_cons, List.map_nil]
    exact List.nodup_append.mpr ⟨hb.nodup, List.nodup_singleton _, by
      intro id hid id' hid' heq
      rw [heq, List.mem_singleton.mp hid'] at hid
      exact hnew hid⟩
  · intro m hm
    rcases List.mem_append.mp hm with hm | hm
    · exact hb.generations m hm
    · obtain rfl := List.mem_singleton.mp hm
      exact hgen

theorem buildLoop_total {b : CompositionBuilder}
    {pairs : List (CompositionMember × AdapterDescriptor)} {seenIds seenModules : List Bytes}
    {total t : UInt64}
    (h : b.buildLoop pairs seenIds seenModules total = .ok t) :
    t = pairs.foldl (fun total p => total + p.1.memoryBytes) total := by
  induction pairs generalizing seenIds seenModules total with
  | nil =>
    cases h
    rfl
  | cons p pairs ih =>
    obtain ⟨m, d⟩ := p
    unfold buildLoop at h
    by_cases h1 : m.adapterId.str ∈ seenIds
    · rw [if_pos h1] at h; cases h
    rw [if_neg h1] at h
    by_cases h2 : m.generation.isNone = true
    · rw [if_pos h2] at h; cases h
    rw [if_neg h2] at h
    by_cases h3 : d.baseModel ≠ b.base
    · rw [if_pos h3] at h; cases h
    rw [if_neg h3] at h
    by_cases h4 : d.baseModelRevision ≠ b.rev
    · rw [if_pos h4] at h; cases h
    rw [if_neg h4] at h
    by_cases h5 : d.memoryBytes ≠ m.memoryBytes
    · rw [if_pos h5] at h; cases h
    rw [if_neg h5] at h
    cases hclaim : claimModules d.targets seenModules with
    | error e => rw [hclaim] at h; cases h
    | ok seen =>
      rw [hclaim] at h
      exact ih h

/-- A composition made of the builder's members under the next id of the generator. -/
structure Builds (b : CompositionBuilder) (rng : Rng) (c : Composition) : Prop where
  id : c.id = (Id.generate rng).1
  members : c.members = b.members
  nonempty : b.members ≠ []
  generation : c.generation = b.gen
  policy : c.policy = b.policy
  total : c.totalMemoryBytes = BinReader.memberTotal b.members
  digest : c.digest = computeDigest b.members b.policy
  validationSummary : c.validationSummary =
    ascii "members=" ++ decimal b.members.length ++ ascii ", digest=" ++ c.digest

theorem build_ok {b : CompositionBuilder} (hb : b.Built) {rng : Rng} {c : Composition}
    (h : (b.build rng).1 = .ok c) : b.Builds rng c := by
  unfold build at h
  dsimp only at h
  by_cases hempty : b.members.isEmpty = true
  · rw [if_pos hempty] at h
    cases h
  rw [if_neg hempty] at h
  cases hloop : buildLoop b (b.members.zip b.descriptors) [] [] 0 with
  | error e => rw [hloop] at h; cases h
  | ok total =>
    rw [hloop] at h
    obtain rfl := (Except.ok.inj h).symm
    have htotal := buildLoop_total hloop
    have hfold : (b.members.zip b.descriptors).foldl (fun total p => total + p.1.memoryBytes) 0 =
        BinReader.memberTotal b.members := by
      have hmap : b.members = (b.members.zip b.descriptors).map Prod.fst := by
        rw [List.map_fst_zip]
        rw [hb.members, List.length_map]
      conv_rhs => rw [hmap]
      rw [BinReader.memberTotal, List.foldl_map]
    exact {
      id := rfl
      members := rfl
      nonempty := fun e => hempty (by rw [e]; rfl)
      generation := rfl
      policy := rfl
      total := htotal.trans hfold
      digest := rfl
      validationSummary := rfl }

end CompositionBuilder

namespace Fabric

/-- Each member of `c` is made from a registered adapter with a generation, and no other member has
its id; the rest of `c` is made from the members, the policy and the counters. -/
structure Publishes (f : Fabric) (policy : Bytes) (rng : Rng) (c : Composition) : Prop where
  id : c.id = (Id.generate rng).1
  registered : ∀ m ∈ c.members, ∃ id d, f.adapter id = some d ∧ d.id = m.adapterId
  nodup : (c.members.map (·.adapterId)).Nodup
  generations : ∀ m ∈ c.members, m.generation ≠ .none
  nonempty : c.members ≠ []
  generation : c.generation = f.nextCompositionGen
  policy : c.policy = policy
  total : c.totalMemoryBytes = BinReader.memberTotal c.members
  digest : c.digest = CompositionBuilder.computeDigest c.members c.policy
  validationSummary : c.validationSummary =
    ascii "members=" ++ decimal c.members.length ++ ascii ", digest=" ++ c.digest

theorem addAll_ok {f : Fabric} {ids : List AdapterId} {b b' : CompositionBuilder}
    (h : f.addAll ids b = .ok b') (hb : b.Built)
    (hreg : ∀ m ∈ b.members, ∃ id d, f.adapter id = some d ∧ d.id = m.adapterId) :
    b'.Built ∧ (∀ m ∈ b'.members, ∃ id d, f.adapter id = some d ∧ d.id = m.adapterId) ∧
      b'.gen = b.gen ∧ b'.policy = b.policy := by
  induction ids generalizing b with
  | nil =>
    cases h
    exact ⟨hb, hreg, rfl, rfl⟩
  | cons id ids ih =>
    unfold addAll at h
    cases hd : f.adapter id with
    | none => rw [hd] at h; cases h
    | some d =>
      rw [hd] at h
      dsimp only at h
      cases hadd : b.add d with
      | error e => rw [hadd] at h; cases h
      | ok b₁ =>
        rw [hadd] at h
        have h : f.addAll ids b₁ = .ok b' := h
        have hb₁ := hb.add hadd
        obtain ⟨_, _, _, _, rfl⟩ := CompositionBuilder.add_ok hadd
        have hreg₁ : ∀ m ∈ b.members ++ [CompositionBuilder.memberOf d],
            ∃ id d, f.adapter id = some d ∧ d.id = m.adapterId := by
          intro m hm
          rcases List.mem_append.mp hm with hm | hm
          · exact hreg m hm
          · obtain rfl := List.mem_singleton.mp hm
            exact ⟨id, d, hd, rfl⟩
        obtain ⟨hbuilt, hreg', hgen, hpolicy⟩ := ih h hb₁ hreg₁
        exact ⟨hbuilt, hreg', hgen, hpolicy⟩

/-- A publish fails and changes nothing, or stores what it returns under the next generation. -/
theorem publish_cases (f : Fabric) (ordered : List AdapterId) (policy : Bytes) (rng : Rng) :
    (∃ e, (f.publishComposition ordered policy rng).1 = .error e ∧
      (f.publishComposition ordered policy rng).2.1 = f) ∨
    ∃ c, f.Publishes policy rng c ∧ (f.publishComposition ordered policy rng).1 = .ok c ∧
      (f.publishComposition ordered policy rng).2.1 = { f with
        compositions := f.compositions.insert c.id.str c
        nextCompositionGen := f.nextCompositionGen.next } := by
  unfold publishComposition
  cases ordered with
  | nil => exact .inl ⟨_, rfl, rfl⟩
  | cons id ids =>
    dsimp only
    cases hfirst : f.adapter id with
    | none => exact .inl ⟨_, rfl, rfl⟩
    | some first =>
      dsimp only
      cases hadd : f.addAll (id :: ids) {
          base := first.baseModel, rev := first.baseModelRevision, policy
          gen := f.nextCompositionGen } with
      | error e => exact .inl ⟨_, rfl, rfl⟩
      | ok b =>
        dsimp only
        obtain ⟨hbuilt, hreg, hgen, hpolicy⟩ := addAll_ok hadd
          ⟨rfl, List.nodup_nil, by simp⟩ (by simp)
        cases hbuild : b.build rng with
        | mk result rng' =>
          cases result with
          | error e => exact .inl ⟨_, rfl, rfl⟩
          | ok c =>
            have hc : b.Builds rng c := CompositionBuilder.build_ok hbuilt (by rw [hbuild])
            refine .inr ⟨c, ?_, rfl, rfl⟩
            exact {
              id := hc.id
              registered := by rw [hc.members]; exact hreg
              nodup := by rw [hc.members]; exact hbuilt.nodup
              generations := by rw [hc.members]; exact hbuilt.generations
              nonempty := by rw [hc.members]; exact hc.nonempty
              generation := hc.generation.trans hgen
              policy := hc.policy.trans hpolicy
              total := by rw [hc.members]; exact hc.total
              digest := by rw [hc.members, hc.policy]; exact hc.digest
              validationSummary := by rw [hc.members]; exact hc.validationSummary }

end Fabric

end AdapterFabric
