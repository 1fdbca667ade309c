import AdapterFabric.Fabric.Saved
import AdapterFabric.Lib.Counter

/-!
# AdapterFabric.Fabric.Freshness

The generations that `register_adapter` and `publish_composition` stamp. Both counters saturate, and
`recover` sets them to whatever the snapshot says.

* `adapterStamps`, `compositionStamps`: the two counters, as machines of `Lib.Counter`.
* `stamps_fresh_iff`: a run stamps fresh generations only, exactly when after each recovery the
  counters it brought are ahead of the adapters of the whole run so far and of the compositions it
  brought, and have room for what follows.
-/

namespace AdapterFabric

open Std

namespace Fabric

theorem generation_ne_none_iff {tag : GenTag} {g : Generation tag} :
    g ≠ .none ↔ 0 < g.value.toNat := by
  constructor
  · intro h
    by_contra hz
    exact h (generation_ext (by rw [Nat.eq_zero_of_not_pos hz]; rfl))
  · rintro h rfl
    exact absurd h (Nat.lt_irrefl 0)

theorem toNat_next_eq_min {tag : GenTag} (g : Generation tag) :
    g.next.value.toNat = min (g.value.toNat + 1) (2 ^ 64 - 1) := by
  have hlt : g.value.toNat < 2 ^ 64 := g.value.toNat_lt
  rw [g.toNat_next]
  split <;> omega

/-! ## Adapters -/

theorem registerAdapter_isOk {f : Fabric} {d : AdapterDescriptor} :
    (f.registerAdapter d).1.isOk = true ↔ Registrable d := by
  rcases registerAdapter_cases f d with ⟨hd, e, he⟩ | ⟨hd, he⟩
  · rw [he]
    exact ⟨fun h => Bool.noConfusion h, fun h => absurd h hd⟩
  · rw [he]
    exact ⟨fun _ => hd, fun _ => rfl⟩

/-- `next_adapter_gen_` and the generations of the registered adapters. -/
def adapterStamps : Counter.Machine Fabric Op where
  apply := Op.apply
  next f := f.nextAdapterGen.value.toNat
  issued f n :=
    ∃ (k : Bytes) (d : AdapterDescriptor), f.adapters[k]? = some d ∧ d.generation.value.toNat = n
  stamps op f :=
    match op with
    | .registerAdapter d => (f.registerAdapter d).1.isOk
    | _ => false
  resets := Op.isRecover
  limit := 2 ^ 64 - 1
  next_le f := by
    have hlt : f.nextAdapterGen.value.toNat < 2 ^ 64 := f.nextAdapterGen.value.toNat_lt
    omega
  stamps_of_resets := by
    intro op f h
    cases op with
    | recover s => rfl
    | _ => cases h
  frame := by
    intro op f hrec hstamps
    have hsame : (op.apply f).nextAdapterGen = f.nextAdapterGen ∧
        (op.apply f).adapters = f.adapters := by
      by_cases hreg : ∃ d, op = .registerAdapter d
      · obtain ⟨d, rfl⟩ := hreg
        rcases registerAdapter_cases f d with ⟨_, e, he⟩ | ⟨hd, _⟩
        · simp only [Op.apply, he, and_self]
        · have hok := registerAdapter_isOk (f := f).mpr hd
          have hstamps : (f.registerAdapter d).1.isOk = false := hstamps
          rw [hok] at hstamps
          cases hstamps
      · by_cases hepoch : op = .advanceEpoch
        · subst hepoch
          exact ⟨rfl, rfl⟩
        · exact (registry_frame (fun d hd => hreg ⟨d, hd⟩) hepoch hrec f).2
    rw [hsame.1, hsame.2]
    exact ⟨rfl, fun _ => Iff.rfl⟩
  next_of_stamps := by
    intro op f hstamps
    cases op with
    | registerAdapter d =>
      rcases registerAdapter_cases f d with ⟨hd, _⟩ | ⟨_, he⟩
      · exact absurd (registerAdapter_isOk.mp hstamps) hd
      · simp only [Op.apply, he]
        exact toNat_next_eq_min f.nextAdapterGen
    | _ => cases hstamps
  issued_of_stamps := by
    intro op f hstamps
    cases op with
    | registerAdapter d =>
      rcases registerAdapter_cases f d with ⟨hd, _⟩ | ⟨_, he⟩
      · exact absurd (registerAdapter_isOk.mp hstamps) hd
      · simp only [Op.apply, he]
        exact ⟨d.id.str, _, by rw [Table.get_insert, if_pos rfl], rfl⟩
    | _ => cases hstamps
  of_issued := by
    intro op f n hstamps
    cases op with
    | registerAdapter d =>
      rcases registerAdapter_cases f d with ⟨hd, _⟩ | ⟨_, he⟩
      · exact absurd (registerAdapter_isOk.mp hstamps) hd
      · simp only [Op.apply, he]
        rintro ⟨k, d', hd', rfl⟩
        rcases Table.of_insert hd' with ⟨_, rfl⟩ | hd'
        · exact .inl rfl
        · exact .inr ⟨k, d', hd', rfl⟩
    | _ => cases hstamps

/-! ## Compositions -/

theorem publish_of_isOk {f : Fabric} {ordered : List AdapterId} {policy : Bytes} {rng : Rng}
    (h : (f.publishComposition ordered policy rng).1.isOk = true) :
    ∃ c, c.generation = f.nextCompositionGen ∧
      (f.publishComposition ordered policy rng).2.1 = { f with
        compositions := f.compositions.insert c.id.str c
        nextCompositionGen := f.nextCompositionGen.next } := by
  rcases publish_cases f ordered policy rng with ⟨e, herr, _⟩ | ⟨c, hc, _, he⟩
  · rw [herr] at h
    cases h
  · exact ⟨c, hc.generation, he⟩

/-- `next_composition_gen_` and the generations of the compositions that are held. -/
def compositionStamps : Counter.Machine Fabric Op where
  apply := Op.apply
  next f := f.nextCompositionGen.value.toNat
  issued f n :=
    ∃ (k : Bytes) (c : Composition), f.compositions[k]? = some c ∧ c.generation.value.toNat = n
  stamps op f :=
    match op with
    | .publishComposition ordered policy rng => (f.publishComposition ordered policy rng).1.isOk
    | _ => false
  resets := Op.isRecover
  limit := 2 ^ 64 - 1
  next_le f := by
    have hlt : f.nextCompositionGen.value.toNat < 2 ^ 64 := f.nextCompositionGen.value.toNat_lt
    omega
  stamps_of_resets := by
    intro op f h
    cases op with
    | recover s => rfl
    | _ => cases h
  frame := by
    intro op f hrec hstamps
    have hsame : (op.apply f).nextCompositionGen = f.nextCompositionGen ∧
        (op.apply f).compositions = f.compositions := by
      by_cases hpub : ∃ ordered policy rng, op = .publishComposition ordered policy rng
      · obtain ⟨ordered, policy, rng, rfl⟩ := hpub
        rcases publish_cases f ordered policy rng with ⟨e, _, he⟩ | ⟨c, _, hok, _⟩
        · simp only [Op.apply, he, and_self]
        · have hstamps : (f.publishComposition ordered policy rng).1.isOk = false := hstamps
          rw [hok] at hstamps
          cases hstamps
      · exact (compositions_frame (fun ordered policy rng hp => hpub ⟨ordered, policy, rng, hp⟩)
          hrec f).symm
    rw [hsame.1, hsame.2]
    exact ⟨rfl, fun _ => Iff.rfl⟩
  next_of_stamps := by
    intro op f hstamps
    cases op with
    | publishComposition ordered policy rng =>
      obtain ⟨c, _, he⟩ := publish_of_isOk hstamps
      simp only [Op.apply, he]
      exact toNat_next_eq_min f.nextCompositionGen
    | _ => cases hstamps
  issued_of_stamps := by
    intro op f hstamps
    cases op with
    | publishComposition ordered policy rng =>
      obtain ⟨c, hgen, he⟩ := publish_of_isOk hstamps
      simp only [Op.apply, he]
      exact ⟨c.id.str, c, by rw [Table.get_insert, if_pos rfl], by rw [hgen]⟩
    | _ => cases hstamps
  of_issued := by
    intro op f n hstamps
    cases op with
    | publishComposition ordered policy rng =>
      obtain ⟨c, hgen, he⟩ := publish_of_isOk hstamps
      simp only [Op.apply, he]
      rintro ⟨k, c', hc', rfl⟩
      rcases Table.of_insert hc' with ⟨_, rfl⟩ | hc'
      · exact .inl (by rw [hgen])
      · exact .inr ⟨k, c', hc', rfl⟩
    | _ => cases hstamps

/-! ## Runs -/

section Runs

variable (f₀ : Fabric) (pre : List Op)

/-- The adapter was registered when the run `pre` ended, or in a state before. -/
def WasRegistered (d : AdapterDescriptor) : Prop :=
  ∃ pre', pre' <+: pre ∧ ∃ k : Bytes, (run pre' f₀).adapters[k]? = some d

/-- The composition is held after `pre`. -/
def IsHeld (c : Composition) : Prop := ∃ k : Bytes, (run pre f₀).compositions[k]? = some c

/-- What the operation stamps after `pre` is a generation: of an adapter, above those of all that
were registered before, and of a composition, above those of all that are held. -/
def Op.StampsFresh : Op → Prop
  | .registerAdapter d => ∀ d', ((run pre f₀).registerAdapter d).1 = .ok d' →
      d'.generation ≠ .none ∧ ∀ old, WasRegistered f₀ pre old →
        old.generation.value.toNat < d'.generation.value.toNat
  | .publishComposition ordered policy rng =>
    ∀ c, ((run pre f₀).publishComposition ordered policy rng).1 = .ok c → c.generation ≠ .none ∧
      ∀ old, IsHeld f₀ pre old → old.generation.value.toNat < c.generation.value.toNat
  | _ => True

/-- The counters after `pre` can stamp so many adapters and compositions freshly. -/
structure Leads (registrations publications : Nat) : Prop where
  adapters : 0 < registrations → ((run pre f₀).nextAdapterGen ≠ .none ∧
    ∀ d, WasRegistered f₀ pre d →
      d.generation.value.toNat < (run pre f₀).nextAdapterGen.value.toNat) ∧
    (run pre f₀).nextAdapterGen.value.toNat + registrations ≤ 2 ^ 64
  compositions : 0 < publications → ((run pre f₀).nextCompositionGen ≠ .none ∧
    ∀ c, IsHeld f₀ pre c →
      c.generation.value.toNat < (run pre f₀).nextCompositionGen.value.toNat) ∧
    (run pre f₀).nextCompositionGen.value.toNat + publications ≤ 2 ^ 64

/-- The counters and the tables are those of the construction or of a recovery. -/
def Begins : Prop := pre = [] ∨ ∃ init s, pre = init ++ [.recover s]

end Runs

/-- How many registrations and publications of the run succeed. -/
def registrations (ops : List Op) (f : Fabric) : Nat := adapterStamps.count ops f

def publications (ops : List Op) (f : Fabric) : Nat := compositionStamps.count ops f

theorem begins_iff {pre : List Op} :
    Begins pre ↔ pre = [] ∨ ∃ init op, pre = init ++ [op] ∧ op.isRecover = true := by
  constructor
  · rintro (rfl | ⟨init, s, rfl⟩)
    · exact .inl rfl
    · exact .inr ⟨init, _, rfl, rfl⟩
  · rintro (rfl | ⟨init, op, rfl, hop⟩)
    · exact .inl rfl
    · cases op with
      | recover s => exact .inr ⟨init, s, rfl⟩
      | _ => cases hop

section Stamps

variable {f₀ : Fabric} {pre : List Op}

theorem aheadEver_adapters_iff : adapterStamps.AheadEver f₀ pre ↔
    (run pre f₀).nextAdapterGen ≠ .none ∧ ∀ d, WasRegistered f₀ pre d →
      d.generation.value.toNat < (run pre f₀).nextAdapterGen.value.toNat := by
  rw [generation_ne_none_iff]
  refine and_congr_right fun _ => ⟨?_, ?_⟩
  · rintro h d ⟨pre', hpre, k, hk⟩
    exact h pre' hpre _ ⟨k, d, hk, rfl⟩
  · rintro h pre' hpre n ⟨k, d, hk, rfl⟩
    exact h d ⟨pre', hpre, k, hk⟩

theorem ahead_compositions_iff : compositionStamps.Ahead (run pre f₀) ↔
    (run pre f₀).nextCompositionGen ≠ .none ∧ ∀ c, IsHeld f₀ pre c →
      c.generation.value.toNat < (run pre f₀).nextCompositionGen.value.toNat := by
  rw [generation_ne_none_iff]
  refine and_congr_right fun _ => ⟨?_, ?_⟩
  · rintro h c ⟨k, hk⟩
    exact h _ ⟨k, c, hk, rfl⟩
  · rintro h n ⟨k, c, hk, rfl⟩
    exact h c ⟨k, hk⟩

theorem stampsFresh_iff {op : Op} : op.StampsFresh f₀ pre ↔
    (adapterStamps.stamps op (run pre f₀) = true → adapterStamps.AheadEver f₀ pre) ∧
      (compositionStamps.stamps op (run pre f₀) = true →
        compositionStamps.Ahead (run pre f₀)) := by
  rw [aheadEver_adapters_iff, ahead_compositions_iff]
  cases op with
  | registerAdapter d =>
    have hother : compositionStamps.stamps (.registerAdapter d) (run pre f₀) = false := rfl
    have hstamps : adapterStamps.stamps (.registerAdapter d) (run pre f₀) = true ↔
      Registrable d := registerAdapter_isOk
    rw [hother, hstamps]
    rcases registerAdapter_cases (run pre f₀) d with ⟨hd, e, he⟩ | ⟨hd, he⟩
    · refine ⟨fun _ => ⟨fun h => absurd h hd, by simp⟩, fun _ d' h => ?_⟩
      rw [he] at h
      cases h
    · constructor
      · intro h
        exact ⟨fun _ => h _ (by rw [he]), by simp⟩
      · rintro ⟨h, _⟩ d' hd'
        rw [he] at hd'
        cases hd'
        exact h hd
  | publishComposition ordered policy rng =>
    have hother : adapterStamps.stamps (.publishComposition ordered policy rng) (run pre f₀) =
      false := rfl
    have hstamps : compositionStamps.stamps (.publishComposition ordered policy rng) (run pre f₀) =
      ((run pre f₀).publishComposition ordered policy rng).1.isOk := rfl
    rw [hother, hstamps]
    rcases publish_cases (run pre f₀) ordered policy rng with ⟨e, herr, _⟩ | ⟨c, hc, hok, _⟩
    · refine ⟨fun _ => ⟨by simp, fun h => ?_⟩, fun _ c h => ?_⟩
      · rw [herr] at h
        cases h
      · rw [herr] at h
        cases h
    · constructor
      · intro h
        exact ⟨by simp, fun _ => by simpa only [hc.generation] using h c hok⟩
      · rintro ⟨_, h⟩ c' hc'
        rw [hok] at hc' h
        cases hc'
        rw [hc.generation]
        exact h rfl
  | _ =>
    exact ⟨fun _ => ⟨fun h => Bool.noConfusion h, fun h => Bool.noConfusion h⟩, fun _ => trivial⟩

/-- The room that the two machines ask for, in the words of the Fabric. -/
theorem leads_iff {seg : List Op} :
    Leads f₀ pre (registrations seg (run pre f₀)) (publications seg (run pre f₀)) ↔
      (0 < adapterStamps.count seg (run pre f₀) → adapterStamps.AheadEver f₀ pre ∧
        adapterStamps.next (run pre f₀) + adapterStamps.count seg (run pre f₀) ≤
          adapterStamps.limit + 1) ∧
      compositionStamps.Suffices (run pre f₀) seg := by
  rw [aheadEver_adapters_iff, Counter.Machine.Suffices, ahead_compositions_iff]
  exact ⟨fun h => ⟨h.adapters, h.compositions⟩, fun h => ⟨h.1, h.2⟩⟩

end Stamps

/-- Every stamp of a run is fresh exactly when, from the construction and from each recovery on, the
counters are ahead of all adapters of the run so far and of the compositions that are held, and have
room for the registrations and publications up to the next recovery. -/
theorem stamps_fresh_iff {f₀ : Fabric} {ops : List Op} :
    (∀ pre op, pre ++ [op] <+: ops → op.StampsFresh f₀ pre) ↔
      ∀ pre seg, pre ++ seg <+: ops → Begins pre → (∀ op ∈ seg, op.isRecover = false) →
        Leads f₀ pre (registrations seg (run pre f₀)) (publications seg (run pre f₀)) := by
  have hsplit : (∀ pre op, pre ++ [op] <+: ops → op.StampsFresh f₀ pre) ↔
      adapterStamps.FreshEver f₀ ops ∧ compositionStamps.Fresh f₀ ops := by
    simp only [stampsFresh_iff]
    exact ⟨fun h => ⟨fun pre op hpre => (h pre op hpre).1, fun pre op hpre => (h pre op hpre).2⟩,
      fun h pre op hpre => ⟨h.1 pre op hpre, h.2 pre op hpre⟩⟩
  rw [hsplit, Counter.Machine.freshEver_iff_between, Counter.Machine.fresh_iff_between]
  constructor
  · rintro ⟨ha, hc⟩ pre seg hpre hbegins hseg
    have hreset := begins_iff.mp hbegins
    exact leads_iff.mpr ⟨ha pre seg hpre hreset hseg, hc pre seg hpre hreset hseg⟩
  · intro h
    refine ⟨fun pre seg hpre hreset hseg => ?_, fun pre seg hpre hreset hseg => ?_⟩
    · exact (leads_iff.mp (h pre seg hpre (begins_iff.mpr hreset) hseg)).1
    · exact (leads_iff.mp (h pre seg hpre (begins_iff.mpr hreset) hseg)).2

/-! ### Registrations after recoveries -/

/-- The same snapshot is recovered twice, and an adapter registered after each recovery. -/
def resumedOps : List Op := [.recover sampleSnapshot, .registerAdapter sampleAdapter,
  .recover sampleSnapshot, .registerAdapter sampleAdapter]

/-- A snapshot whose counters are none is accepted, and the next registration stamps none. One that
is recovered again brings its counter back, and a generation is stamped again. -/
theorem stamps_fresh_counterexample :
    (deserializeSnapshot (serializeSnapshot {}) = .ok {} ∧
      ¬ (Op.registerAdapter sampleAdapter).StampsFresh .default [.recover {}]) ∧
    deserializeSnapshot (serializeSnapshot sampleSnapshot) = .ok sampleSnapshot ∧
      ¬ (Op.registerAdapter sampleAdapter).StampsFresh .default (resumedOps.take 3) := by
  refine ⟨⟨deserialize_serialize ?_, fun h => ?_⟩,
    deserialize_serialize sampleSnapshot_wellFormed, fun h => ?_⟩
  · exact ⟨bounded_nil, bounded_nil, bounded_nil, List.nodup_nil, List.nodup_nil, List.nodup_nil⟩
  · exact (h { sampleAdapter with generation := .none } (by decide +kernel)).1 rfl
  · -- the generation of the registration before the second recovery
    have hfresh := h { sampleAdapter with generation := ⟨2⟩ } (by decide +kernel)
    refine Nat.lt_irrefl _ (hfresh.2 { sampleAdapter with generation := ⟨2⟩ } ?_)
    exact ⟨resumedOps.take 2, ⟨[.recover sampleSnapshot], rfl⟩, sampleAdapter.id.str,
      by decide +kernel⟩

end Fabric

end AdapterFabric
