import Mathlib.Data.Nat.Notation

/-!
# Lib.RowMajor

Index arithmetic for matrices stored row by row, and for grids of equal blocks.

* `forall_lt_iff`: all indices of an `m` by `n` matrix lie below a bound just when its size does not
  exceed it.
* `inj`: different elements have different indices.
* `le_blocks`: the blocks counted by rounding up cover everything.
-/

namespace RowMajor

variable {i i' j j' m n b : ℕ}

theorem lt_size (hi : i < m) (hj : j < n) : i * n + j < m * n := by
  have h : (i + 1) * n ≤ m * n := Nat.mul_le_mul_right n hi
  rw [Nat.add_mul, Nat.one_mul] at h
  omega

theorem inj (hj : j < n) (hj' : j' < n) (h : i * n + j = i' * n + j') : i = i' ∧ j = j' := by
  have hi : i = i' := by
    have hdiv := congrArg (· / n) h
    simpa [Nat.mul_comm _ n, Nat.mul_add_div (Nat.zero_lt_of_lt hj), Nat.div_eq_of_lt hj,
      Nat.div_eq_of_lt hj'] using hdiv
  subst hi
  exact ⟨rfl, by omega⟩

theorem exists_of_lt {k : ℕ} (hk : k < m * n) : ∃ i j, i < m ∧ j < n ∧ k = i * n + j := by
  have hn : 0 < n := Nat.pos_of_ne_zero fun h => by simp [h] at hk
  refine ⟨k / n, k % n, Nat.div_lt_of_lt_mul (by rwa [Nat.mul_comm]), Nat.mod_lt k hn, ?_⟩
  rw [Nat.mul_comm, Nat.div_add_mod]

theorem last_add_one (hm : 0 < m) (hn : 0 < n) : (m - 1) * n + (n - 1) + 1 = m * n := by
  obtain ⟨m, rfl⟩ := Nat.exists_eq_succ_of_ne_zero (Nat.ne_of_gt hm)
  rw [Nat.succ_sub_one, Nat.succ_mul]
  omega

theorem forall_lt_iff (hm : 0 < m) (hn : 0 < n) :
    (∀ i < m, ∀ j < n, i * n + j < b) ↔ m * n ≤ b := by
  constructor
  · intro h
    have hlast := h (m - 1) (by omega) (n - 1) (by omega)
    have := last_add_one hm hn
    omega
  · intro h i hi j hj
    exact Nat.lt_of_lt_of_le (lt_size hi hj) h

theorem le_blocks (hb : 0 < b) : n ≤ (n + (b - 1)) / b * b := by
  have hdiv := Nat.div_add_mod (n + (b - 1)) b
  have hmod := Nat.mod_lt (n + (b - 1)) hb
  rw [Nat.mul_comm] at hdiv
  omega

end RowMajor
