import Mathlib.LinearAlgebra.Matrix.NonsingularInverse
import Mathlib.Data.Int.ModEq

/-!
# Lib.ShortVector

Short solutions of a linear congruence, and a use of them: two runs of an affine recurrence.

The integer vectors whose weighted sum is divisible by `m` form a lattice. A basis of short vectors
shows that nothing but zero stays within given bounds: each vector of the dual basis, multiplied by
`m`, has small entries, so its product with a vector within the bounds is less than `m`.

* `Certificate.eq_zero`: a sum that is divisible by `m` has nothing but zeros in it.
* `sub_modEq`: how far two runs of `x ↦ p * (x + t)` are apart.
-/

namespace ShortVector

open Matrix

variable {n m : ℕ} {c bound : Fin n → ℤ}

/-- The multiples of the weights, brought next to zero. -/
def dual (m : ℕ) (c mult : Fin n → ℤ) : Matrix (Fin n) (Fin n) ℤ :=
  .of fun j i => (mult j * c i).bmod m

/-- What shows that no vector within the bounds has a weighted sum divisible by `m`, but zero. -/
structure Certificate (m : ℕ) (c bound : Fin n → ℤ) where
  mult : Fin n → ℤ
  basis : Matrix (Fin n) (Fin n) ℤ
  small : ∀ j, ∑ i, |dual m c mult j i| * bound i < m
  inverse : basisᵀ * dual m c mult = (m : ℤ) • (1 : Matrix (Fin n) (Fin n) ℤ)

theorem dual_dvd (mult v : Fin n → ℤ) (h : (m : ℤ) ∣ ∑ i, c i * v i) (j : Fin n) :
    (m : ℤ) ∣ (dual m c mult *ᵥ v) j := by
  have hrow : (dual m c mult *ᵥ v) j =
      ∑ i, (dual m c mult j i - mult j * c i) * v i + mult j * ∑ i, c i * v i := by
    rw [Finset.mul_sum, ← Finset.sum_add_distrib, mulVec, dotProduct]
    refine Finset.sum_congr rfl fun i _ => ?_
    ring
  rw [hrow]
  refine dvd_add (Finset.dvd_sum fun i _ => Dvd.dvd.mul_right ?_ _) (h.mul_left _)
  exact Int.ModEq.dvd Int.bmod_emod.symm

theorem Certificate.eq_zero (cert : Certificate m c bound) (hm : m ≠ 0) {v : Fin n → ℤ}
    (hv : ∀ i, |v i| ≤ bound i) (h : (m : ℤ) ∣ ∑ i, c i * v i) : v = 0 := by
  have hdual : dual m c cert.mult *ᵥ v = 0 := by
    funext j
    have hle : |(dual m c cert.mult *ᵥ v) j| ≤ ∑ i, |dual m c cert.mult j i| * bound i := by
      rw [mulVec, dotProduct]
      refine (Finset.abs_sum_le_sum_abs _ _).trans (Finset.sum_le_sum fun i _ => ?_)
      rw [abs_mul]
      exact mul_le_mul_of_nonneg_left (hv i) (abs_nonneg _)
    exact Int.eq_zero_of_abs_lt_dvd (dual_dvd cert.mult v h j) (hle.trans_lt (cert.small j))
  have hscaled : (m : ℤ) • v = 0 := by
    have hone := congrArg (· *ᵥ v) cert.inverse
    simp only [← mulVec_mulVec, hdual, mulVec_zero, smul_mulVec, one_mulVec] at hone
    exact hone.symm
  exact (smul_eq_zero.mp hscaled).resolve_left (by exact_mod_cast hm)

/-- Two runs from one start: what was added at each step, less what the other run added. -/
theorem sub_modEq {p : ℤ} {x y s t : ℕ → ℤ} {k : ℕ} (h₀ : x 0 = y 0)
    (hx : ∀ i < k, x (i + 1) ≡ p * (x i + s i) [ZMOD m])
    (hy : ∀ i < k, y (i + 1) ≡ p * (y i + t i) [ZMOD m]) :
    x k - y k ≡ ∑ i ∈ Finset.range k, p ^ (k - i) * (s i - t i) [ZMOD m] := by
  induction k with
  | zero => simp [h₀]
  | succ k ih =>
    have hlast := (hx k k.lt_succ_self).sub (hy k k.lt_succ_self)
    have hprev := (ih (fun i hi => hx i (by omega)) fun i hi => hy i (by omega)).mul_left p
    rw [Finset.sum_range_succ]
    have hshift : ∑ i ∈ Finset.range k, p ^ (k + 1 - i) * (s i - t i) =
        p * ∑ i ∈ Finset.range k, p ^ (k - i) * (s i - t i) := by
      rw [Finset.mul_sum]
      refine Finset.sum_congr rfl fun i hi => ?_
      rw [Nat.succ_sub (Finset.mem_range.mp hi).le, pow_succ']
      ring
    calc x (k + 1) - y (k + 1) ≡ p * (x k + s k) - p * (y k + t k) [ZMOD m] := hlast
      _ = p * (x k - y k) + p * (s k - t k) := by ring
      _ ≡ p * (∑ i ∈ Finset.range k, p ^ (k - i) * (s i - t i)) + p * (s k - t k) [ZMOD m] :=
        hprev.add_right _
      _ = _ := by rw [hshift, Nat.add_sub_cancel_left, pow_one]

end ShortVector
