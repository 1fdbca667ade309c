import Mathlib.Logic.Basic

/-!
# Lib.Lease

Exclusive leases. Keys hold tokens, each token has an owner, and one slot remembers the token that
counts. `Exclusive` says that whoever holds a token is its owner and the slot remembers it; then no
two keys hold tokens at once. `Exclusive.step` is the rule for one step: every token held after it
was either granted by it, or held before it and spared.
-/

namespace Lease

variable {κ τ : Type*} {owner : τ → κ} {held held' : κ → τ → Prop} {slot slot' : Option τ}

def Exclusive (owner : τ → κ) (held : κ → τ → Prop) (slot : Option τ) : Prop :=
  ∀ k t, held k t → slot = some t ∧ owner t = k

namespace Exclusive

theorem of_none (h : ∀ k t, ¬ held k t) : Exclusive owner held slot :=
  fun k t hk => absurd hk (h k t)

theorem unique (h : Exclusive owner held slot) {k k' : κ} {t t' : τ} (hk : held k t)
    (hk' : held k' t') : k = k' := by
  obtain ⟨hs, rfl⟩ := h k t hk
  obtain ⟨hs', rfl⟩ := h k' t' hk'
  rw [hs] at hs'
  rw [Option.some.inj hs']

theorem step (h : Exclusive owner held slot)
    (hstep : ∀ k t, held' k t → (slot' = some t ∧ owner t = k) ∨
      (held k t ∧ (owner t = k → slot = some t → slot' = some t))) :
    Exclusive owner held' slot' := by
  intro k t hk
  rcases hstep k t hk with hgranted | ⟨hheld, hspared⟩
  · exact hgranted
  · obtain ⟨hs, ho⟩ := h k t hheld
    exact ⟨hspared ho hs, ho⟩

end Exclusive

end Lease
