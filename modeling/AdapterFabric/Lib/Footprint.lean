import AdapterFabric.Lib.Interleave
import Mathlib.Data.Set.Basic
import Mathlib.Data.Finset.Insert

/-!
# Lib.Footprint

Threads that load from one memory and store to it.

A thread keeps to its footprint when it stores at addresses of its own only, and loads from these
and from addresses that nobody stores at.

* `Runs.step`: threads that keep to footprints of their own do what each of them does alone.
* `result`: so every interleaving in which they end leaves behind what they leave behind alone.
* `finish`: and every interleaving of finitely many threads can be brought to its end.
-/

namespace Footprint

open Interleave

variable {A V α : Type}

/-! ## Memory -/

inductive Access (A V : Type) where
  | load (a : A)
  | store (a : A) (v : V)

/-- What an access is answered with. -/
abbrev Answer : Access A V → Type
  | .load _ => V
  | .store _ _ => Unit

abbrev Program (A V α : Type) := Prog (Access A V) Answer α

/-! ## Footprints -/

def Access.Within (R W : Set A) : Access A V → Prop
  | load a => a ∈ R ∨ a ∈ W
  | store a _ => a ∈ W

/-- The program loads from `R` and `W` only and stores to `W` only. -/
def Keeps (R W : Set A) : Program A V α → Prop
  | .done _ => True
  | .perform e k => e.Within R W ∧ ∀ r, Keeps R W (k r)

section

variable {R W : Set A} {a : A}

theorem keeps_done (b : α) : Keeps R W (.done b : Program A V α) := trivial

theorem keeps_load {k : V → Program A V α} (ha : a ∈ R ∨ a ∈ W) (hk : ∀ v, Keeps R W (k v)) :
    Keeps R W (.perform (.load a) k) := ⟨ha, hk⟩

theorem Keeps.mono {W' : Set A} {p : Program A V α} (h : Keeps R W p) (hW : W ⊆ W') :
    Keeps R W' p := by
  induction p with
  | done b => trivial
  | perform e k ih =>
    refine ⟨?_, fun r => ih r (h.2 r)⟩
    cases e with
    | load a => exact h.1.imp_right (hW ·)
    | store a v => exact hW h.1

theorem keeps_store {v : V} {k : Unit → Program A V α} (ha : a ∈ W) (hk : Keeps R W (k ())) :
    Keeps R W (.perform (.store a v) k) := ⟨ha, fun _ => hk⟩

end

/-! ## Threads -/

section

variable [DecidableEq A]

def access (m : A → V) : (e : Access A V) → Answer e × (A → V)
  | .load a => (m a, m)
  | .store a v => ((), Function.update m a v)

/-- Nothing but its threads changes the memory, and no threads are started. -/
def memory : System (A → V) (Access A V) Answer Empty Empty α where
  exec m e r m' := access m e = (r, m')
  env _ v _ := v.elim
  start v := v.elim

/-- The program alone: what it returns, and the memory it leaves behind. -/
def alone : Program A V α → (A → V) → α × (A → V)
  | .done a, m => (a, m)
  | .perform e k, m => alone (k (access m e).1) (access m e).2

/-- Nobody stores to `R`, and no two threads to the same address. -/
structure Apart (R : Set A) (W : ℕ → Set A) : Prop where
  shared : ∀ i, ∀ a ∈ R, a ∉ W i
  own : ∀ i j, i ≠ j → ∀ a ∈ W i, a ∉ W j

variable {R : Set A} {W : ℕ → Set A}

/-- A thread that started as `p` with the memory `m₀` will come to what `p` comes to alone, as far
as it can see. -/
structure Runs (R W : Set A) (m₀ : A → V) (p : Program A V α) (m : A → V) (q : Program A V α)
    (seen : A → V) : Prop where
  keeps : Keeps R W q
  alone : Footprint.alone q seen = Footprint.alone p m₀
  sees : ∀ a, a ∈ R ∨ a ∈ W → m a = seen a

/-- What the threads of `c₀` have come to in `c`. -/
structure Solitary (R : Set A) (W : ℕ → Set A) (c₀ c : Config (A → V) (Access A V) Answer α) :
    Prop where
  thread : ∀ i p, c₀.threads i = some p → ∃ q seen, c.threads i = some q ∧
    Runs R (W i) c₀.shared p c.shared q seen
  none : ∀ i, c₀.threads i = none → c.threads i = none
  rest : ∀ a, (∀ i, a ∉ W i) → c.shared a = c₀.shared a

theorem Solitary.refl {c : Config (A → V) (Access A V) Answer α}
    (hkeeps : ∀ i p, c.threads i = some p → Keeps R (W i) p) : Solitary R W c c where
  thread i p hp := ⟨p, c.shared, hp, hkeeps i p hp, rfl, fun _ _ => rfl⟩
  none _ h := h
  rest _ _ := rfl

theorem Runs.step {R W : Set A} {m₀ m seen : A → V} {p : Program A V α} {e : Access A V}
    {k : Answer e → Program A V α} {r : Answer e} {m' : A → V}
    (h : Runs R W m₀ p m (.perform e k) seen) (hstep : access m e = (r, m')) :
    Runs R W m₀ p m' (k r) (access seen e).2 := by
  obtain ⟨⟨hwithin, hkeeps⟩, halone, hsees⟩ := h
  cases e with
  | load a =>
    obtain ⟨rfl, rfl⟩ := Prod.mk.inj hstep
    have hsame : m a = seen a := hsees a hwithin
    refine ⟨hkeeps _, ?_, hsees⟩
    rw [← halone, hsame]
    rfl
  | store a v =>
    obtain ⟨rfl, rfl⟩ := Prod.mk.inj hstep
    refine ⟨hkeeps _, halone, fun b hb => ?_⟩
    by_cases hba : b = a
    · subst hba
      simp [access]
    · simp [access, Function.update_of_ne hba, hsees b hb]

theorem Runs.other {R W W' : Set A} {m₀ m seen : A → V} {p q : Program A V α} {e : Access A V}
    {r : Answer e} {m' : A → V} (h : Runs R W m₀ p m q seen) (hwithin : e.Within R W')
    (hshared : ∀ a ∈ R, a ∉ W') (hown : ∀ a ∈ W, a ∉ W') (hstep : access m e = (r, m')) :
    Runs R W m₀ p m' q seen := by
  cases e with
  | load a =>
    obtain ⟨-, rfl⟩ := Prod.mk.inj hstep
    exact h
  | store a v =>
    obtain ⟨-, rfl⟩ := Prod.mk.inj hstep
    refine ⟨h.keeps, h.alone, fun b hb => ?_⟩
    have hba : b ≠ a := by
      rintro rfl
      rcases hb with hb | hb
      · exact hshared b hb hwithin
      · exact hown b hb hwithin
    rw [Function.update_of_ne hba]
    exact h.sees b hb

theorem Solitary.step {c₀ c c' : Config (A → V) (Access A V) Answer α}
    {l : Label (Access A V) Answer Empty Empty} (hapart : Apart R W) (h : Solitary R W c₀ c)
    (hstep : Step memory c l c') : Solitary R W c₀ c' := by
  cases hstep with
  | spawn req => exact req.elim
  | @event v _ henv => exact v.elim
  | @effect i e k r m' hthread hexec =>
    have hexec : access c.shared e = (r, m') := hexec
    have hsome : ∃ p, c₀.threads i = some p := by
      cases hp : c₀.threads i with
      | none =>
        rw [h.none i hp] at hthread
        cases hthread
      | some p => exact ⟨p, rfl⟩
    obtain ⟨p, hp⟩ := hsome
    obtain ⟨q, seen, hq, hruns⟩ := h.thread i p hp
    obtain rfl := Option.some.inj (hthread.symm.trans hq)
    have hwithin := hruns.keeps.1
    constructor
    · intro j p' hp'
      by_cases hji : j = i
      · subst hji
        obtain rfl := Option.some.inj (hp.symm.trans hp')
        exact ⟨_, _, Function.update_self .., hruns.step hexec⟩
      · obtain ⟨q', seen', hq', hruns'⟩ := h.thread j p' hp'
        refine ⟨q', seen', (Function.update_of_ne hji ..).trans hq', ?_⟩
        exact hruns'.other hwithin (hapart.shared i) (hapart.own j i hji) hexec
    · intro j hj
      have hji : j ≠ i := by
        rintro rfl
        rw [hp] at hj
        cases hj
      exact (Function.update_of_ne hji ..).trans (h.none j hj)
    · intro a ha
      rw [← h.rest a ha]
      cases e with
      | load b =>
        obtain ⟨-, rfl⟩ := Prod.mk.inj hexec
        rfl
      | store b v =>
        obtain ⟨-, rfl⟩ := Prod.mk.inj hexec
        refine Function.update_of_ne ?_ _ _
        rintro rfl
        exact ha i hwithin

variable {c₀ c : Config (A → V) (Access A V) Answer α}
  {ls : List (Label (Access A V) Answer Empty Empty)}

theorem solitary (hapart : Apart R W)
    (hkeeps : ∀ i p, c₀.threads i = some p → Keeps R (W i) p) (h : Steps memory c₀ ls c) :
    Solitary R W c₀ c :=
  h.preserves (P := Solitary R W c₀) (fun hstep hc => hc.step hapart hstep) (.refl hkeeps)

/-- A thread that has ended has returned what it returns alone, and where it stores the memory holds
what it leaves behind alone. -/
theorem result (hapart : Apart R W)
    (hkeeps : ∀ i p, c₀.threads i = some p → Keeps R (W i) p) (h : Steps memory c₀ ls c) {i : ℕ}
    {p : Program A V α} {b : α} (hp : c₀.threads i = some p) (hb : c.threads i = some (.done b)) :
    (alone p c₀.shared).1 = b ∧ ∀ a ∈ W i, c.shared a = (alone p c₀.shared).2 a := by
  obtain ⟨q, seen, hq, hruns⟩ := (solitary hapart hkeeps h).thread i p hp
  obtain rfl := Option.some.inj (hb.symm.trans hq)
  rw [← hruns.alone]
  exact ⟨rfl, fun a ha => hruns.sees a (.inr ha)⟩

/-! ## Ends -/

theorem access_exec (m : A → V) (e : Access A V) :
    (memory (α := α)).exec m e (access m e).1 (access m e).2 := rfl

theorem exists_done (p : Program A V α) : ∀ m : A → V,
    ∃ n b, (p.solo access n m).1 = .done b := by
  induction p with
  | done a => exact fun m => ⟨0, a, rfl⟩
  | perform e k ih =>
    intro m
    obtain ⟨n, b, h⟩ := ih (access m e).1 (access m e).2
    exact ⟨n + 1, b, h⟩

/-- All threads of a finite set can be brought to their ends. -/
theorem finish_all (s : Finset ℕ) : ∀ c : Config (A → V) (Access A V) Answer α, ∃ ls c',
    Steps memory c ls c' ∧ (∀ i ∈ s, ∀ p, c'.threads i = some p → ∃ b, p = .done b) ∧
      ∀ i, c.threads i = none → c'.threads i = none := by
  induction s using Finset.induction_on with
  | empty => exact fun c => ⟨[], c, .nil c, by simp, fun _ h => h⟩
  | insert j s hj ih =>
    intro c
    obtain ⟨ls, c', hsteps, hends, hnone⟩ := ih c
    cases hthread : c'.threads j with
    | none =>
      refine ⟨ls, c', hsteps, ?_, hnone⟩
      intro i hi p hp
      rcases Finset.mem_insert.mp hi with rfl | hi
      · rw [hthread] at hp
        cases hp
      · exact hends i hi p hp
    | some p =>
      obtain ⟨n, b, hdone⟩ := exists_done p c'.shared
      obtain ⟨ls', c'', hsteps', -, hi, hothers⟩ := Steps.of_solo (S := memory) id
        access_exec n (t := c'.shared) rfl hthread
      rw [hdone] at hi
      refine ⟨_, c'', hsteps.append hsteps', ?_, ?_⟩
      · intro i hmem q hq
        by_cases hij : i = j
        · subst hij
          exact ⟨b, Option.some.inj (hq.symm.trans hi)⟩
        · rw [hothers i hij] at hq
          exact hends i ((Finset.mem_insert.mp hmem).resolve_left hij) q hq
      · intro i hci
        have hij : i ≠ j := by
          rintro rfl
          rw [hnone i hci] at hthread
          cases hthread
        rw [hothers i hij]
        exact hnone i hci

end

end Footprint
