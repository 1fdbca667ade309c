import AdapterFabric.Lib.Interleave

/-!
# Lib.ProgramLogic

Reasoning about one thread.

* `eval`: running a program to its end with nothing in between; `solo_eval` connects it with the
  interleavings.
* `denote`: a program as an action of a monad, from an action for each effect.
* `wp`: what a program does to a ghost state, from a rule for each effect; `wp_mono` is the rule of
  consequence.
-/

namespace Interleave

namespace Prog

variable {E : Type} {Res : E → Type} {α β σ γ : Type}

/-! ## Running alone -/

/-- The result of a program, and the state, when its effects are answered by `ans` with nothing in
between. -/
def eval (ans : σ → (e : E) → Res e × σ) : Prog E Res α → σ → α × σ
  | done a, s => (a, s)
  | perform e k, s => eval ans (k (ans s e).1) (ans s e).2

section Eval

variable (ans : σ → (e : E) → Res e × σ)

@[simp] theorem eval_done (a : α) (s : σ) : (done a : Prog E Res α).eval ans s = (a, s) := rfl

@[simp] theorem eval_perform (e : E) (k : Res e → Prog E Res α) (s : σ) :
    (perform e k).eval ans s = (k (ans s e).1).eval ans (ans s e).2 := rfl

@[simp] theorem eval_pure (a : α) (s : σ) : (pure a : Prog E Res α).eval ans s = (a, s) := rfl

@[simp] theorem eval_bind (p : Prog E Res α) (f : α → Prog E Res β) (s : σ) :
    (p >>= f).eval ans s = (f (p.eval ans s).1).eval ans (p.eval ans s).2 := by
  show (p.bind f).eval ans s = _
  induction p generalizing s with
  | done a => rfl
  | perform e k ih => exact ih _ _

/-- Enough effects bring a program to its end. -/
theorem solo_eval (p : Prog E Res α) (s : σ) :
    ∃ n, p.solo ans n s = (done (p.eval ans s).1, (p.eval ans s).2) := by
  induction p generalizing s with
  | done a => exact ⟨0, rfl⟩
  | perform e k ih =>
    obtain ⟨n, hn⟩ := ih (ans s e).1 (ans s e).2
    exact ⟨n + 1, hn⟩

end Eval

/-! ## Meanings in a monad -/

section Denote

variable {M : Type → Type} [Monad M] (act : (e : E) → M (Res e))

/-- The action of a program whose effects are the actions `act`. -/
def denote : Prog E Res α → M α
  | done a => Pure.pure a
  | perform e k => act e >>= fun r => (k r).denote

theorem denote_call [LawfulMonad M] (e : E) :
    (call e : Prog E Res (Res e)).denote act = act e := by
  show (act e >>= fun r => Pure.pure r) = act e
  rw [bind_pure]

theorem denote_bind [LawfulMonad M] (p : Prog E Res α) (f : α → Prog E Res β) :
    (p >>= f).denote act = p.denote act >>= fun a => (f a).denote act := by
  show (p.bind f).denote act = _
  induction p with
  | done a =>
    show (f a).denote act = Pure.pure a >>= fun a => (f a).denote act
    rw [pure_bind]
  | perform e k ih =>
    show act e >>= (fun r => ((k r).bind f).denote act) =
      (act e >>= fun r => (k r).denote act) >>= _
    rw [bind_assoc]
    exact congrArg _ (funext ih)

end Denote

/-! ## Ghost state -/

/-- `Φ e K g` is what must hold of the ghost state `g` before the effect `e` so that `K` holds of
every answer and the ghost state after it. -/
def wp (Φ : (e : E) → (Res e → γ → Prop) → γ → Prop) : Prog E Res α → (α → γ → Prop) → γ → Prop
  | done a, Q, g => Q a g
  | perform e k, Q, g => Φ e (fun r => (k r).wp Φ Q) g

section Wp

variable {Φ : (e : E) → (Res e → γ → Prop) → γ → Prop}

@[simp] theorem wp_pure (a : α) (Q : α → γ → Prop) (g : γ) :
    (pure a : Prog E Res α).wp Φ Q g = Q a g := rfl

@[simp] theorem wp_bind (p : Prog E Res α) (f : α → Prog E Res β) (Q : β → γ → Prop) (g : γ) :
    (p >>= f).wp Φ Q g = p.wp Φ (fun a => (f a).wp Φ Q) g := by
  show (p.bind f).wp Φ Q g = _
  induction p generalizing g with
  | done a => rfl
  | perform e k ih =>
    show Φ e (fun r => ((k r).bind f).wp Φ Q) g = Φ e _ g
    congr 1
    funext r g'
    exact ih r g'

/-- The rule of consequence. -/
theorem wp_mono
    (hΦ : ∀ e (K K' : Res e → γ → Prop) g, (∀ r g, K r g → K' r g) → Φ e K g → Φ e K' g)
    {p : Prog E Res α} {Q Q' : α → γ → Prop} (hQ : ∀ a g, Q a g → Q' a g) {g : γ}
    (h : p.wp Φ Q g) : p.wp Φ Q' g := by
  induction p generalizing g with
  | done a => exact hQ a g h
  | perform e k ih => exact hΦ e _ _ g (fun r _ hr => ih r hr) h

end Wp

end Prog

end Interleave
