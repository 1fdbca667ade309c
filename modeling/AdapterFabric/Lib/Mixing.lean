import Mathlib.Data.Fintype.EquivFin
import Mathlib.Data.Nat.ModEq
import Mathlib.Logic.Function.Iterate

/-!
# Lib.Mixing

Steps that scramble machine words without losing anything, and counters that miss no word.

* `xorShift_injective`: xor with the word itself, shifted to the right.
* `mul_injective`: multiplication by a word that has an inverse.
* `weyl_eq_iff`: a counter with such an increment repeats after `2 ^ w` steps and not before.
* `existsUnique_lt`: a sequence that repeats only then takes every value once in that time.
-/

namespace Mixing

variable {w : ℕ}

def xorShift (k : ℕ) (x : BitVec w) : BitVec w := x ^^^ (x >>> k)

theorem eq_zero_of_eq_shift {k : ℕ} (hk : 0 < k) {d : BitVec w} (h : d = d >>> k) : d = 0#w := by
  have hdiv : d.toNat = d.toNat / 2 ^ k := by
    rw [← Nat.shiftRight_eq_div_pow, ← BitVec.toNat_ushiftRight, ← h]
  have hpow : 1 < 2 ^ k := Nat.one_lt_two_pow (by omega)
  by_contra hne
  have hpos : 0 < d.toNat := by
    rw [Nat.pos_iff_ne_zero]
    intro hzero
    exact hne (BitVec.eq_of_toNat_eq (by simpa using hzero))
  have hlt := Nat.div_lt_self hpos hpow
  omega

theorem xorShift_injective {k : ℕ} (hk : 0 < k) : Function.Injective (xorShift (w := w) k) := by
  intro x y h
  have hdiff : x ^^^ y = (x ^^^ y) >>> k := by
    rw [BitVec.ushiftRight_xor_distrib]
    calc x ^^^ y = (x ^^^ x >>> k) ^^^ (y ^^^ y >>> k) ^^^ (x >>> k ^^^ y >>> k) := by
          ac_nf
          simp
      _ = x >>> k ^^^ y >>> k := by
          rw [show x ^^^ x >>> k = y ^^^ y >>> k from h]
          simp
  have hzero := eq_zero_of_eq_shift hk hdiff
  calc x = (x ^^^ y) ^^^ y := by rw [BitVec.xor_assoc, BitVec.xor_self, BitVec.xor_zero]
    _ = y := by rw [hzero, BitVec.zero_xor]

theorem mul_injective {c d : BitVec w} (h : c * d = 1#w) :
    Function.Injective fun x : BitVec w => x * c := by
  intro x y hxy
  have hxy : x * c = y * c := hxy
  calc x = x * c * d := by rw [BitVec.mul_assoc, h, BitVec.mul_one]
    _ = y * c * d := by rw [hxy]
    _ = y := by rw [BitVec.mul_assoc, h, BitVec.mul_one]

/-- `n` steps of the counter with increment `c`. -/
theorem iterate_add (c s : BitVec w) (n : ℕ) :
    (fun x => x + c)^[n] s = s + BitVec.ofNat w n * c := by
  induction n generalizing s with
  | zero => simp
  | succ n ih =>
    rw [Function.iterate_succ_apply, ih, BitVec.ofNat_add, BitVec.add_mul, BitVec.one_mul,
      BitVec.add_assoc, BitVec.add_comm c]

theorem weyl_eq_iff {c d : BitVec w} (h : c * d = 1#w) (s : BitVec w) {i j : ℕ} :
    (fun x => x + c)^[i] s = (fun x => x + c)^[j] s ↔ i ≡ j [MOD 2 ^ w] := by
  rw [iterate_add, iterate_add, BitVec.add_right_inj, (mul_injective h).eq_iff,
    ← BitVec.toNat_inj, BitVec.toNat_ofNat, BitVec.toNat_ofNat]
  rfl

theorem existsUnique_lt {f : ℕ → BitVec w} (hf : ∀ {i j}, f i = f j ↔ i ≡ j [MOD 2 ^ w])
    (v : BitVec w) : ∃! i, i < 2 ^ w ∧ f i = v := by
  have hinj : Function.Injective fun i : Fin (2 ^ w) => (f i).toFin := by
    intro i j h
    have hmod := hf.mp (BitVec.toFin_inj.mp h)
    exact Fin.ext (hmod.eq_of_lt_of_lt i.isLt j.isLt)
  obtain ⟨i, hi⟩ := Finite.surjective_of_injective hinj v.toFin
  have hi : f i = v := BitVec.toFin_inj.mp hi
  refine ⟨i, ⟨i.isLt, hi⟩, ?_⟩
  rintro j ⟨hj, heq⟩
  exact (hf.mp (heq.trans hi.symm)).eq_of_lt_of_lt hj i.isLt

end Mixing
