import Mathlib.Logic.Function.Basic
import Mathlib.Data.List.Basic

/-!
# Lib.FoldHash

Hashes that fold one step over a list of symbols.

When the step is injective in the accumulator (for each symbol) and in the symbol (for each
accumulator), the fold is injective in its start value (`foldl_injective`), and replacing one
symbol of the list always changes the hash (`foldl_set_ne`).
-/

namespace FoldHash

open Function

variable {η β : Type*} {step : η → β → η}

theorem foldl_injective (hs : ∀ b, Injective fun h => step h b) :
    ∀ bs : List β, Injective fun h => bs.foldl step h := by
  intro bs
  induction bs with
  | nil => exact injective_id
  | cons b bs ih => exact ih.comp (hs b)

theorem foldl_set_ne (hs : ∀ b, Injective fun h => step h b) (hb : ∀ h, Injective (step h))
    {bs : List β} : ∀ {i : Nat} (hi : i < bs.length) {v : β} (h : η), v ≠ bs[i] →
      (bs.set i v).foldl step h ≠ bs.foldl step h := by
  induction bs with
  | nil => intro i hi; simp at hi
  | cons b bs ih =>
    intro i hi v h hv
    cases i with
    | zero =>
      -- the accumulators differ after this symbol, and stay apart
      intro he
      simp only [List.set_cons_zero, List.foldl_cons] at he
      exact hv (hb h (foldl_injective hs bs he))
    | succ i =>
      simp only [List.set_cons_succ, List.foldl_cons]
      exact ih (by simpa using hi) (step h b) (by simpa using hv)

end FoldHash
