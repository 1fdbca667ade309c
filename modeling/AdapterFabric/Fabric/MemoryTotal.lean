import AdapterFabric.Fabric.Acceptance

/-!
# AdapterFabric.Fabric.MemoryTotal

The memory total of a published composition (`composition.cpp`).

* `total_exact_iff`: the total is the sum of the members' sizes, and lists that sum to more than 64
  bits hold are turned away, exactly as long as no publishable list sums to more.
-/

namespace AdapterFabric

namespace Fabric

/-- What the adapters on a list take up together. -/
def listedBytes (f : Fabric) (ordered : List AdapterId) : Nat :=
  ((f.listed ordered).map (·.memoryBytes.toNat)).sum

/-- The total of what is published is the sum of its members, and what would not fit is rejected. -/
structure ExactTotal (f : Fabric) (ordered : List AdapterId) (policy : Bytes) (rng : Rng) :
    Prop where
  exact : ∀ c, (f.publishComposition ordered policy rng).1 = .ok c →
    c.totalMemoryBytes.toNat = (c.members.map (·.memoryBytes.toNat)).sum
  each : ∀ c, (f.publishComposition ordered policy rng).1 = .ok c →
    ∀ m ∈ c.members, m.memoryBytes ≤ c.totalMemoryBytes
  rejects : 2 ^ 64 - 1 < f.listedBytes ordered →
    (∃ e, (f.publishComposition ordered policy rng).1 = .error e) ∧
      (f.publishComposition ordered policy rng).2.1 = f

theorem PublishedAs.listedBytes {f : Fabric} {ordered : List AdapterId} {policy : Bytes} {rng : Rng}
    {c : Composition} (h : f.PublishedAs ordered policy rng c) :
    (c.members.map (·.memoryBytes.toNat)).sum = f.listedBytes ordered := by
  rw [h.members, List.map_map]
  rfl

/-- The loop variable of `build` wraps, so the total is the sum only up to `2 ^ 64`. -/
theorem PublishedAs.total_toNat {f : Fabric} {ordered : List AdapterId} {policy : Bytes} {rng : Rng}
    {c : Composition} (h : f.PublishedAs ordered policy rng c) :
    c.totalMemoryBytes.toNat = f.listedBytes ordered % 2 ^ 64 := by
  rw [h.total, memberTotal_toNat, h.listedBytes]

theorem total_exact_iff {f : Fabric} (hf : Fresh f) (ops : List Op) (ordered : List AdapterId)
    (policy : Bytes) (rng : Rng) :
    (run ops f).ExactTotal ordered policy rng ↔
      ((run ops f).Publishable ordered → (run ops f).listedBytes ordered ≤ 2 ^ 64 - 1) := by
  rcases publish_spec (run_adapters_keyed hf ops) ordered policy rng with
    ⟨hno, e, he, hsame⟩ | ⟨hyes, c, hc, hok, hstate⟩
  · refine iff_of_true ⟨by rw [he]; nofun, by rw [he]; nofun, fun _ => ⟨⟨e, he⟩, hsame⟩⟩
      fun h => absurd h hno
  · rw [forall_prop_of_true hyes]
    constructor
    · intro h
      by_contra hlarge
      obtain ⟨⟨e, he⟩, -⟩ := h.rejects (not_le.mp hlarge)
      rw [hok] at he
      cases he
    · intro hfits
      have htotal : c.totalMemoryBytes.toNat = (c.members.map (·.memoryBytes.toNat)).sum := by
        rw [hc.total_toNat, hc.listedBytes]
        exact Nat.mod_eq_of_lt (by omega)
      refine ⟨fun c' hc' => ?_, fun c' hc' m hm => ?_, fun h => absurd hfits (not_le.mpr h)⟩
      · obtain rfl := Except.ok.inj (hok.symm.trans hc')
        exact htotal
      · obtain rfl := Except.ok.inj (hok.symm.trans hc')
        obtain ⟨pre, post, hsplit⟩ := List.append_of_mem hm
        rw [UInt64.le_iff_toNat_le, htotal, hsplit, List.map_append, List.map_cons, List.sum_append,
          List.sum_cons]
        omega

/-! ### Two halves of the address space -/

def hugeAdapter : AdapterDescriptor := { sampleAdapter with memoryBytes := 0x8000000000000000 }

def otherHugeAdapter : AdapterDescriptor := { hugeAdapter with id := ⟨.ofBytes [9]⟩ }

def hugeOps : List Op := [.registerAdapter hugeAdapter, .registerAdapter otherHugeAdapter]

theorem total_exact_iff_sample :
    (run sampleOps .default).ExactTotal [sampleAdapter.id] [] .instanceInit :=
  (total_exact_iff .default sampleOps _ _ _).mpr fun _ => by decide +kernel

theorem total_exact_counterexample :
    ¬ (run hugeOps .default).ExactTotal [hugeAdapter.id, otherHugeAdapter.id] [] .instanceInit := by
  intro h
  have hlarge : 2 ^ 64 - 1 <
      (run hugeOps .default).listedBytes [hugeAdapter.id, otherHugeAdapter.id] := by
    decide +kernel
  have hok : ((run hugeOps .default).publishComposition [hugeAdapter.id, otherHugeAdapter.id] []
      .instanceInit).1.isOk = true := by
    decide +kernel
  obtain ⟨⟨e, he⟩, -⟩ := h.rejects hlarge
  rw [he] at hok
  cases hok

end Fabric

end AdapterFabric
