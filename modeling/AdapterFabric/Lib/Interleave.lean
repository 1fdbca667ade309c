import AdapterFabric.Lib.Run
import Mathlib.Logic.Function.Basic

/-!
# Lib.Interleave

Threads that share a state and touch it only through atomic effects.

A thread runs a `Prog`, which returns or performs an effect and goes on with the answer. A `System`
says what the effects do to the shared state, what the environment does to it on its own, and which
program a request starts. `Step` interleaves any number of threads and the environment.

* `Step.shared_cases`: a step leaves the shared state alone, or is one effect or one event.
* `invariant`: what effects and events preserve holds throughout every interleaving.
* `Steps.of_solo`: letting one thread go on alone is one of the interleavings; `Steps.of_solo_meets`
  also says of what kind its steps are.
* `Tracks`: places that serve one request after another, each request a thread of its own.
-/

namespace Interleave

/-! ## Programs -/

inductive Prog (E : Type) (Res : E → Type) (α : Type) where
  | done (a : α)
  | perform (e : E) (k : Res e → Prog E Res α)

namespace Prog

variable {E : Type} {Res : E → Type} {α β : Type}

def bind : Prog E Res α → (α → Prog E Res β) → Prog E Res β
  | done a, f => f a
  | perform e k, f => perform e fun r => (k r).bind f

instance : Monad (Prog E Res) where
  pure := done
  bind := bind

/-- The program that performs one effect and returns its answer. -/
def call (e : E) : Prog E Res (Res e) := perform e done

/-- What is left of a program, and the state, after up to `n` of its effects were answered by `ans`
with nothing in between. -/
def solo {σ : Type} (ans : σ → (e : E) → Res e × σ) : ℕ → Prog E Res α → σ → Prog E Res α × σ
  | 0, p, s => (p, s)
  | _, done a, s => (done a, s)
  | n + 1, perform e k, s => solo ans n (k (ans s e).1) (ans s e).2

/-- Is each of these effects performed in a state where `ok` allows it? -/
def soloMeets {σ : Type} (ans : σ → (e : E) → Res e × σ) (ok : σ → E → Bool) :
    ℕ → Prog E Res α → σ → Bool
  | 0, _, _ => true
  | _, done _, _ => true
  | n + 1, perform e k, s => ok s e && soloMeets ans ok n (k (ans s e).1) (ans s e).2

theorem soloMeets_true {σ : Type} (ans : σ → (e : E) → Res e × σ) (n : ℕ) (p : Prog E Res α)
    (s : σ) : p.soloMeets ans (fun _ _ => true) n s = true := by
  induction n generalizing p s with
  | zero => rfl
  | succ n ih =>
    cases p with
    | done a => rfl
    | perform e k => exact ih _ _

/-- Does the program perform next an effect that satisfies `q`? -/
def performs (q : E → Bool) : Prog E Res α → Bool
  | done _ => false
  | perform e _ => q e

theorem performs_iff {q : E → Bool} {p : Prog E Res α} :
    p.performs q = true ↔ ∃ e k, p = perform e k ∧ q e = true := by
  cases p with
  | done a => simp [performs]
  | perform e k =>
    constructor
    · intro h
      exact ⟨e, k, rfl, h⟩
    · rintro ⟨e', k', h, hq⟩
      cases h
      exact hq

end Prog

/-! ## Systems -/

/-- Shared state `σ`, effects `E` with answers `Res`, events `ν` of the environment, and requests
`ρ` whose threads end with an `α`. -/
structure System (σ E : Type) (Res : E → Type) (ν ρ α : Type) where
  exec : σ → (e : E) → Res e → σ → Prop
  env : σ → ν → σ → Prop
  start : ρ → Prog E Res α

structure Config (σ E : Type) (Res : E → Type) (α : Type) where
  shared : σ
  threads : ℕ → Option (Prog E Res α)

inductive Label (E : Type) (Res : E → Type) (ν ρ : Type) where
  | spawn (i : ℕ) (req : ρ)
  | effect (i : ℕ) (e : E) (r : Res e)
  | event (v : ν)

section

variable {σ E : Type} {Res : E → Type} {ν ρ α : Type} (S : System σ E Res ν ρ α)

inductive Step : Config σ E Res α → Label E Res ν ρ → Config σ E Res α → Prop where
  | spawn {c : Config σ E Res α} {i : ℕ} (req : ρ) (hfree : c.threads i = none) :
    Step c (.spawn i req) { c with threads := Function.update c.threads i (some (S.start req)) }
  | effect {c : Config σ E Res α} {i : ℕ} {e : E} {k : Res e → Prog E Res α} {r : Res e} {s : σ}
    (hthread : c.threads i = some (.perform e k)) (hexec : S.exec c.shared e r s) :
    Step c (.effect i e r) ⟨s, Function.update c.threads i (some (k r))⟩
  | event {c : Config σ E Res α} {v : ν} {s : σ} (henv : S.env c.shared v s) :
    Step c (.event v) { c with shared := s }

/-- Every interleaving, as the labels of its steps. -/
abbrev Steps := Run.Steps (Step S)

variable {S} {c c' : Config σ E Res α} {l : Label E Res ν ρ} {ls : List (Label E Res ν ρ)}

theorem Step.shared_cases (h : Step S c l c') :
    (∃ i req, l = .spawn i req ∧ c'.shared = c.shared) ∨
    (∃ i e r, l = .effect i e r ∧ S.exec c.shared e r c'.shared) ∨
    ∃ v, l = .event v ∧ S.env c.shared v c'.shared := by
  cases h with
  | spawn req hfree => exact .inl ⟨_, req, rfl, rfl⟩
  | effect hthread hexec => exact .inr (.inl ⟨_, _, _, rfl, hexec⟩)
  | event henv => exact .inr (.inr ⟨_, rfl, henv⟩)

theorem invariant {I : σ → Prop} (hexec : ∀ {s e r s'}, S.exec s e r s' → I s → I s')
    (henv : ∀ {s v s'}, S.env s v s' → I s → I s') (h : Steps S c ls c') (hI : I c.shared) :
    I c'.shared := by
  refine h.preserves (P := fun c => I c.shared) ?_ hI
  intro c₁ l c₂ hstep h₁
  rcases hstep.shared_cases with ⟨_, _, _, he⟩ | ⟨_, _, _, _, he⟩ | ⟨_, _, he⟩
  · rwa [he]
  · exact hexec he h₁
  · exact henv he h₁

section Solo

/-! What a thread does alone may also be answered from a state that shows the shared one. -/

variable {τ : Type} (view : τ → σ) {ans : τ → (e : E) → Res e × τ}
  (hans : ∀ t e, S.exec (view t) e (ans t e).1 (view (ans t e).2))
include hans

theorem Steps.of_solo_meets {C : Config σ E Res α → Label E Res ν ρ → Prop} {ok : τ → E → Bool}
    (hok : ∀ c t i e, c.shared = view t → ok t e = true → C c (.effect i e (ans t e).1)) {i : ℕ}
    (n : ℕ) {p : Prog E Res α} {c : Config σ E Res α} {t : τ} (hview : c.shared = view t)
    (hthread : c.threads i = some p) (hmeets : p.soloMeets ans ok n t = true) :
    ∃ ls c', Run.Steps (fun c l c' => Step S c l c' ∧ C c l) c ls c' ∧
      c'.shared = view (p.solo ans n t).2 ∧ c'.threads i = some (p.solo ans n t).1 ∧
      ∀ j, j ≠ i → c'.threads j = c.threads j := by
  induction n generalizing p c t with
  | zero => exact ⟨[], c, .nil c, hview, hthread, fun _ _ => rfl⟩
  | succ n ih =>
    cases p with
    | done a => exact ⟨[], c, .nil c, hview, hthread, fun _ _ => rfl⟩
    | perform e k =>
      obtain ⟨he, hrest⟩ := Bool.and_eq_true_iff.mp hmeets
      have hexec : S.exec c.shared e (ans t e).1 (view (ans t e).2) := hview ▸ hans t e
      obtain ⟨ls, c', hrun, hshared, hi, hj⟩ :=
        ih (c := ⟨_, Function.update c.threads i _⟩) rfl (Function.update_self i _ c.threads) hrest
      have hfirst := And.intro (Step.effect (S := S) hthread hexec) (hok c t i e hview he)
      refine ⟨_, c', .cons hfirst hrun, hshared, hi, fun j hne => ?_⟩
      exact (hj j hne).trans (Function.update_of_ne hne _ _)

theorem Steps.of_solo {i : ℕ} (n : ℕ) {p : Prog E Res α} {c : Config σ E Res α} {t : τ}
    (hview : c.shared = view t) (hthread : c.threads i = some p) :
    ∃ ls c', Steps S c ls c' ∧ c'.shared = view (p.solo ans n t).2 ∧
      c'.threads i = some (p.solo ans n t).1 ∧ ∀ j, j ≠ i → c'.threads j = c.threads j := by
  obtain ⟨ls, c', hrun, hend⟩ := Steps.of_solo_meets view hans (C := fun _ _ => True)
    (fun _ _ _ _ _ _ => trivial) n hview hthread (Prog.soloMeets_true ans n p t)
  exact ⟨ls, c', hrun.imp fun h => h.1, hend⟩

/-- A request that is started in a free thread and goes on alone. -/
theorem Steps.of_request_meets {C : Config σ E Res α → Label E Res ν ρ → Prop} {ok : τ → E → Bool}
    (hok : ∀ c t i e, c.shared = view t → ok t e = true → C c (.effect i e (ans t e).1)) {i : ℕ}
    (n : ℕ) (req : ρ) {c : Config σ E Res α} {t : τ} (hview : c.shared = view t)
    (hfree : c.threads i = none) (hspawn : C c (.spawn i req))
    (hmeets : (S.start req).soloMeets ans ok n t = true) :
    ∃ ls c', Run.Steps (fun c l c' => Step S c l c' ∧ C c l) c (.spawn i req :: ls) c' ∧
      c'.shared = view ((S.start req).solo ans n t).2 ∧
      c'.threads i = some ((S.start req).solo ans n t).1 ∧
      ∀ j, j ≠ i → c'.threads j = c.threads j := by
  obtain ⟨ls, c', hrest, hshared, hi, hj⟩ := Steps.of_solo_meets view hans hok n (t := t)
    (c := { c with threads := Function.update c.threads i _ }) hview
    (Function.update_self i _ c.threads) hmeets
  refine ⟨ls, c', .cons ⟨.spawn req hfree, hspawn⟩ hrest, hshared, hi, fun j hne => ?_⟩
  exact (hj j hne).trans (Function.update_of_ne hne _ _)

theorem Steps.of_request {i : ℕ} (n : ℕ) (req : ρ) {c : Config σ E Res α} {t : τ}
    (hview : c.shared = view t) (hfree : c.threads i = none) :
    ∃ ls c', Steps S c ls c' ∧ c'.shared = view ((S.start req).solo ans n t).2 ∧
      c'.threads i = some ((S.start req).solo ans n t).1 ∧
      ∀ j, j ≠ i → c'.threads j = c.threads j := by
  obtain ⟨ls, c', hrun, hend⟩ := Steps.of_request_meets view hans (C := fun _ _ => True)
    (fun _ _ _ _ _ _ => trivial) n req hview hfree trivial (Prog.soloMeets_true ans n _ t)
  exact ⟨_, c', hrun.imp fun h => h.1, hend⟩

end Solo

end

/-! ## Places -/

section Places

variable {E : Type} {Res : E → Type} {α : Type}

/-- What each place runs is in the thread of that place; from `free` on threads are free. -/
structure Tracks (places threads : ℕ → Option (Prog E Res α)) (thread : ℕ → ℕ) (free : ℕ) :
    Prop where
  runs : ∀ d p, places d = some p → threads (thread d) = some p
  apart : ∀ d d' p p', places d = some p → places d' = some p' → thread d = thread d' → d = d'
  free : ∀ j, free ≤ j → threads j = none

namespace Tracks

variable {places places' threads : ℕ → Option (Prog E Res α)} {thread : ℕ → ℕ} {free : ℕ}

theorem keep (h : Tracks places threads thread free)
    (hkept : ∀ d p, places' d = some p → places d = some p) :
    Tracks places' threads thread free :=
  ⟨fun d p hp => h.runs d p (hkept d p hp),
    fun d d' p p' hp hp' => h.apart d d' p p' (hkept d p hp) (hkept d' p' hp'), h.free⟩

theorem lt_free (h : Tracks places threads thread free) {d : ℕ} {p : Prog E Res α}
    (hp : places d = some p) : thread d < free := by
  by_contra hge
  cases (h.free _ (Nat.not_lt.mp hge)).symm.trans (h.runs d p hp)

theorem spawn (h : Tracks places threads thread free) (d : ℕ) (p : Prog E Res α) :
    Tracks (Function.update places d (some p)) (Function.update threads free (some p))
      (Function.update thread d free) (free + 1) := by
  constructor
  · intro d' p' hp
    by_cases hd : d' = d
    · subst hd
      rw [Function.update_self] at hp ⊢
      rw [Function.update_self, hp]
    · rw [Function.update_of_ne hd] at hp ⊢
      rw [Function.update_of_ne (Nat.ne_of_lt (h.lt_free hp))]
      exact h.runs d' p' hp
  · intro d₁ d₂ p₁ p₂ hp₁ hp₂ heq
    by_cases h₁ : d₁ = d
    · by_cases h₂ : d₂ = d
      · rw [h₁, h₂]
      · subst h₁
        rw [Function.update_of_ne h₂] at hp₂ heq
        rw [Function.update_self] at heq
        have := h.lt_free hp₂
        omega
    · by_cases h₂ : d₂ = d
      · subst h₂
        rw [Function.update_of_ne h₁] at hp₁ heq
        rw [Function.update_self] at heq
        have := h.lt_free hp₁
        omega
      · rw [Function.update_of_ne h₁] at hp₁ heq
        rw [Function.update_of_ne h₂] at hp₂ heq
        exact h.apart d₁ d₂ p₁ p₂ hp₁ hp₂ heq
  · intro j hj
    rw [Function.update_of_ne (by omega)]
    exact h.free j (by omega)

theorem advance (h : Tracks places threads thread free) {d : ℕ} {p : Prog E Res α}
    (hp : places d = some p) (q : Prog E Res α) :
    Tracks (Function.update places d (some q)) (Function.update threads (thread d) (some q)) thread
      free := by
  have hold {d' : ℕ} {p' : Prog E Res α} (hp' : Function.update places d (some q) d' = some p') :
      ∃ p₀, places d' = some p₀ := by
    by_cases hd : d' = d
    · exact ⟨p, hd ▸ hp⟩
    · rw [Function.update_of_ne hd] at hp'
      exact ⟨p', hp'⟩
  constructor
  · intro d' p' hp'
    by_cases hd : d' = d
    · subst hd
      rw [Function.update_self] at hp' ⊢
      exact hp'
    · rw [Function.update_of_ne hd] at hp'
      rw [Function.update_of_ne fun heq => hd (h.apart d' d p' p hp' hp heq)]
      exact h.runs d' p' hp'
  · intro d₁ d₂ p₁ p₂ hp₁ hp₂
    obtain ⟨q₁, hq₁⟩ := hold hp₁
    obtain ⟨q₂, hq₂⟩ := hold hp₂
    exact h.apart d₁ d₂ q₁ q₂ hq₁ hq₂
  · intro j hj
    have := h.lt_free hp
    rw [Function.update_of_ne (by omega)]
    exact h.free j hj

end Tracks

end Places

end Interleave
