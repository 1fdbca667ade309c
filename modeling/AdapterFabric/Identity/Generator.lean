import AdapterFabric.Identity
import AdapterFabric.Lib.Mixing
import Mathlib.Data.Set.Card

/-!
# AdapterFabric.Identity.Generator

The numbers and identities that one generator yields (`rng.hpp`, `uuid.hpp`).

* `full_period`: its numbers repeat after `2 ^ 64` draws and not before, whatever the seed.
* `after_position`: the state of the generator of a process tells how many it has drawn.
* `generate_at_most`: no identity comes from more than four of the `2 ^ 64` seeds, nor more than
  four times from one generator in its period.
-/

namespace AdapterFabric

namespace Rng

@[ext] theorem ext {r r' : Rng} (h : r.state = r'.state) : r = r' := by
  cases r
  cases r'
  cases h
  rfl

/-- What `next` returns for the state it has advanced to. -/
def scramble (s : UInt64) : UInt64 :=
  let z := (s ^^^ (s >>> 30)) * 0xBF58476D1CE4E5B9
  let z := (z ^^^ (z >>> 27)) * 0x94D049BB133111EB
  z ^^^ (z >>> 31)

theorem next_eq (r : Rng) :
    r.next = (scramble (r.state + 0x9E3779B97F4A7C15), ⟨r.state + 0x9E3779B97F4A7C15⟩) := rfl

theorem toBitVec_scramble (s : UInt64) : (scramble s).toBitVec =
    Mixing.xorShift 31 (Mixing.xorShift 27 (Mixing.xorShift 30 s.toBitVec * 0xBF58476D1CE4E5B9#64) *
      0x94D049BB133111EB#64) := by
  simp [scramble, Mixing.xorShift]

theorem scramble_injective : Function.Injective scramble := by
  intro s t h
  have h := congrArg UInt64.toBitVec h
  rw [toBitVec_scramble, toBitVec_scramble] at h
  have h := Mixing.xorShift_injective (by decide) h
  have h := Mixing.mul_injective (d := 0x319642B2D24D8EC3#64) (by decide) h
  have h := Mixing.xorShift_injective (by decide) h
  have h := Mixing.mul_injective (d := 0x96DE1B173F119089#64) (by decide) h
  exact UInt64.toBitVec_inj.mp (Mixing.xorShift_injective (by decide) h)

/-! ## Numbers -/

/-- The generator after `n` draws. -/
def after (r : Rng) (n : ℕ) : Rng := (fun r => r.next.2)^[n] r

/-- The number drawn after `n` others. -/
def draw (r : Rng) (n : ℕ) : UInt64 := (r.after n).next.1

theorem after_add (r : Rng) (m n : ℕ) : r.after (m + n) = (r.after m).after n := by
  rw [after, Nat.add_comm, Function.iterate_add_apply]
  rfl

theorem toBitVec_after (r : Rng) (n : ℕ) : (r.after n).state.toBitVec =
    (fun x => x + 0x9E3779B97F4A7C15#64)^[n] r.state.toBitVec := by
  induction n generalizing r with
  | zero => rfl
  | succ n ih =>
    rw [after, Function.iterate_succ_apply, Function.iterate_succ_apply]
    exact ih r.next.2

/-- The states of a generator come back after `2 ^ 64` draws and not before. -/
theorem after_eq_iff (r : Rng) {i j : ℕ} : r.after i = r.after j ↔ i ≡ j [MOD 2 ^ 64] := by
  have hinv : 0x9E3779B97F4A7C15#64 * 0xF1DE83E19937733D#64 = 1#64 := by decide
  rw [← Mixing.weyl_eq_iff hinv r.state.toBitVec, ← toBitVec_after, ← toBitVec_after,
    UInt64.toBitVec_inj]
  exact ⟨congrArg state, ext⟩

/-- So do the numbers drawn, and each of the `2 ^ 64` numbers is drawn once in that time. -/
theorem full_period (r : Rng) :
    (∀ i j, r.draw i = r.draw j ↔ i ≡ j [MOD 2 ^ 64]) ∧
      ∀ v, ∃! i, i < 2 ^ 64 ∧ r.draw i = v := by
  have hiff : ∀ {i j}, r.draw i = r.draw j ↔ i ≡ j [MOD 2 ^ 64] := by
    intro i j
    rw [← r.after_eq_iff, draw, draw, next_eq, next_eq]
    constructor
    · intro h
      exact ext ((UInt64.add_left_inj _).mp (scramble_injective h))
    · intro h
      rw [h]
  refine ⟨fun i j => hiff, fun v => ?_⟩
  obtain ⟨i, ⟨hlt, hi⟩, huniq⟩ := Mixing.existsUnique_lt (f := fun i => (r.draw i).toBitVec)
    (UInt64.toBitVec_inj.trans hiff) v.toBitVec
  refine ⟨i, ⟨hlt, UInt64.toBitVec_inj.mp hi⟩, ?_⟩
  rintro j ⟨hj, rfl⟩
  exact huniq j ⟨hj, rfl⟩

/-- How many numbers a process has drawn from its generator when that is `r`, modulo `2 ^ 64`. -/
def position (r : Rng) : ℕ := ((r.state - instanceInit.state) * 0xF1DE83E19937733D).toNat

theorem after_position (r : Rng) : instanceInit.after r.position = r := by
  refine ext (UInt64.toBitVec_inj.mp ?_)
  have hposition : BitVec.ofNat 64 r.position =
      (r.state.toBitVec - instanceInit.state.toBitVec) * 0xF1DE83E19937733D#64 := by
    rw [position, ← UInt64.toNat_toBitVec, BitVec.ofNat_toNat, BitVec.setWidth_eq]
    simp only [UInt64.toBitVec_mul, UInt64.toBitVec_sub, UInt64.toBitVec_ofNat]
  rw [toBitVec_after, Mixing.iterate_add, hposition, BitVec.mul_assoc,
    show 0xF1DE83E19937733D#64 * 0x9E3779B97F4A7C15#64 = 1#64 by decide, BitVec.mul_one,
    BitVec.add_comm, BitVec.sub_add_cancel]

theorem position_after (n : ℕ) : (instanceInit.after n).position = n % 2 ^ 64 := by
  have hmod := instanceInit.after_eq_iff.mp (after_position (instanceInit.after n))
  have hlt : (instanceInit.after n).position < 2 ^ 64 := UInt64.toNat_lt _
  rwa [Nat.ModEq, Nat.mod_eq_of_lt hlt] at hmod

theorem draw_inj {r r' : Rng} {n : ℕ} (h : r.draw n = r'.draw n) : r = r' := by
  have hsame := (UInt64.add_left_inj _).mp (scramble_injective h)
  have hbits := congrArg UInt64.toBitVec hsame
  rw [toBitVec_after, toBitVec_after, Mixing.iterate_add, Mixing.iterate_add,
    BitVec.add_left_inj] at hbits
  exact ext (UInt64.toBitVec_inj.mp hbits)

end Rng

/-! ## Identities -/

namespace Uuid

/-- The identity generated after `n` others. -/
def identity (n : ℕ) (r : Rng) : Uuid := (generate ((fun r => (generate r).2)^[n] r)).1

theorem generate_snd (r : Rng) : (generate r).2 = r.after 2 := rfl

theorem identity_eq (n : ℕ) (r : Rng) : identity n r = (generate (r.after (2 * n))).1 := by
  have hafter : (fun r => (generate r).2)^[n] r = r.after (2 * n) := by
    induction n with
    | zero => simp [Rng.after]
    | succ n ih =>
      rw [Function.iterate_succ_apply', ih, generate_snd, ← Rng.after_add, Nat.mul_succ]
  rw [identity, hafter]

/-- The octets from the ninth on hold the second number drawn, but for two of its bits. -/
theorem drop_generate (r : Rng) : (generate r).1.bytes.drop 8 =
    ((UInt8.ofNat (r.draw 1).toNat &&& 0x3F) ||| 0x80) ::
      LittleEndian.unpack 7 ((r.draw 1).toNat / 256) := rfl

theorem toNat_variant (b : UInt8) : ((b &&& 0x3F) ||| 0x80).toNat = b.toNat % 64 + 128 := by
  have key : ∀ n < 256, ((UInt8.ofNat n &&& 0x3F) ||| 0x80).toNat = n % 64 + 128 := by
    decide +kernel
  simpa using key b.toNat b.toNat_lt

/-- The two bits that the variant replaces. -/
def lostBits (r : Rng) : ℕ := (r.draw 1).toNat / 64 % 4

/-- An identity and the two lost bits determine the generator. -/
theorem generate_inj {r r' : Rng} (h : (generate r).1 = (generate r').1)
    (hlost : lostBits r = lostBits r') : r = r' := by
  have htail := congrArg (List.drop 8 ·.bytes) h
  simp only [drop_generate] at htail
  obtain ⟨hlow, hhigh⟩ := List.cons.inj htail
  have hlow := congrArg UInt8.toNat hlow
  rw [toNat_variant, toNat_variant, UInt8.toNat_ofNat', UInt8.toNat_ofNat'] at hlow
  have hv := (r.draw 1).toNat_lt
  have hv' := (r'.draw 1).toNat_lt
  have hhigh := congrArg LittleEndian.pack hhigh
  rw [LittleEndian.pack_unpack (by omega), LittleEndian.pack_unpack (by omega)] at hhigh
  refine Rng.draw_inj (n := 1) (UInt64.toNat_inj.mp ?_)
  unfold lostBits at hlost
  omega

/-- The octet with the variant is not zero. -/
theorem isNil_generate (r : Rng) : (generate r).1.isNil = false := by
  have hmem : (UInt8.ofNat (r.draw 1).toNat &&& 0x3F) ||| 0x80 ∈ (generate r).1.bytes := by
    apply List.mem_of_mem_drop (i := 8)
    rw [drop_generate]
    exact List.mem_cons_self
  rw [isNil, List.all_eq_false]
  refine ⟨_, hmem, ?_⟩
  rw [beq_iff_eq]
  intro hzero
  have := toNat_variant (UInt8.ofNat (r.draw 1).toNat)
  rw [hzero] at this
  simp at this

theorem encard_generate_le {α : Type} (f : α → Rng) {s : Set α} (hf : s.InjOn f) {u : Uuid}
    (hs : ∀ a ∈ s, (generate (f a)).1 = u) : s.encard ≤ 4 := by
  have hmaps : s.MapsTo (fun a => lostBits (f a)) (Finset.range 4) := by
    intro a _
    simp [lostBits, Nat.mod_lt]
  have hinj : s.InjOn fun a => lostBits (f a) := by
    intro a ha b hb hlost
    exact hf ha hb (generate_inj ((hs a ha).trans (hs b hb).symm) hlost)
  have hle := Set.encard_le_encard_of_injOn hmaps hinj
  rwa [Set.encard_coe_eq_coe_finsetCard, Finset.card_range] at hle

/-- No identity comes from more than four seeds, or more than four times from one generator before
its numbers repeat; and none of them is nil. -/
theorem generate_at_most (u : Uuid) :
    {seed | (generate ⟨seed⟩).1 = u}.encard ≤ 4 ∧
      (∀ r, {n | n < 2 ^ 63 ∧ identity n r = u}.encard ≤ 4) ∧
      ∀ n r, (identity n r).isNil = false := by
  refine ⟨encard_generate_le Rng.mk (fun _ _ _ _ h => congrArg Rng.state h) fun _ h => h, ?_, ?_⟩
  · intro r
    refine encard_generate_le (u := u) (fun n => r.after (2 * n)) ?_ fun n hn => ?_
    · rintro m ⟨hm, -⟩ n ⟨hn, -⟩ h
      have := (r.after_eq_iff.mp h).eq_of_lt_of_lt (by omega) (by omega)
      omega
    · rw [← identity_eq]
      exact hn.2
  · intro n r
    exact isNil_generate _

end Uuid

end AdapterFabric
