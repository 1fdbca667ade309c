import Mathlib.Data.List.Basic

/-!
# Lib.Delimited

Texts that tell where they end.

`Delimits enc`: from `enc a` and whatever stands behind it, `a` and what stands behind can be told.
`Told u v` says this of two texts only. Texts of one length are such (`fixed`), and so is a sequence
of such texts behind which stands a symbol that none of them begins with (`list`), also when they
are separated by another symbol (`separated`). `append_cons_inj`: so is a text ended by a symbol
that it does not hold.
-/

namespace Delimited

variable {α β τ : Type}

def Delimits (enc : α → List τ) : Prop :=
  ∀ (a b : α) (s t : List τ), enc a ++ s = enc b ++ t → a = b ∧ s = t

theorem fixed {enc : α → List τ} {n : Nat} (hinj : Function.Injective enc)
    (hlen : ∀ a, (enc a).length = n) : Delimits enc := by
  intro a b s t h
  obtain ⟨hab, hst⟩ := List.append_inj h (by rw [hlen, hlen])
  exact ⟨hinj hab, hst⟩

/-- Neither text goes on where the other one ends. -/
def Told (u v : List τ) : Prop := ∀ s t, u ++ s = v ++ t → u = v ∧ s = t

theorem Delimits.told {enc : α → List τ} (h : Delimits enc) (a b : α) : Told (enc a) (enc b) := by
  intro s t hst
  obtain ⟨hab, hrest⟩ := h a b s t hst
  exact ⟨congrArg enc hab, hrest⟩

theorem Delimits.injective {enc : α → List τ} (h : Delimits enc) : Function.Injective enc :=
  fun a b hab => (h a b [] [] (by rw [hab])).1

/-- The first `e` of a text ends it. -/
theorem append_cons_inj {e : τ} {u v s t : List τ} (hu : e ∉ u) (hv : e ∉ v)
    (h : u ++ e :: s = v ++ e :: t) : u = v ∧ s = t := by
  induction u generalizing v with
  | nil =>
    cases v with
    | nil => exact ⟨rfl, (List.cons.inj h).2⟩
    | cons y v => exact absurd (by rw [(List.cons.inj h).1]; simp) hv
  | cons x u ih =>
    cases v with
    | nil => exact absurd (by rw [← (List.cons.inj h).1]; simp) hu
    | cons y v =>
      obtain ⟨rfl, htail⟩ := List.cons.inj h
      obtain ⟨rfl, hst⟩ := ih (fun he => hu (List.mem_cons_of_mem _ he))
        (fun he => hv (List.mem_cons_of_mem _ he)) htail
      exact ⟨rfl, hst⟩

/-- A sequence of such texts, none of which begins with the symbol behind the last one. -/
theorem Delimits.list {enc : α → List τ} {e : τ} (h : Delimits enc)
    (he : ∀ a, ∃ x, (enc a).head? = some x ∧ x ≠ e) :
    Delimits fun as : List α => as.flatMap enc ++ [e] := by
  have hend (a : α) (s t : List τ) : enc a ++ s ≠ e :: t := by
    obtain ⟨x, hx, hne⟩ := he a
    obtain ⟨u, hu⟩ := List.head?_eq_some_iff.mp hx
    rw [hu]
    exact fun heq => hne (List.cons.inj heq).1
  intro as
  induction as with
  | nil =>
    intro bs s t hst
    cases bs with
    | nil => exact ⟨rfl, (List.cons.inj hst).2⟩
    | cons b bs =>
      simp only [List.flatMap_cons, List.append_assoc] at hst
      exact absurd hst.symm (hend _ _ _)
  | cons a as ih =>
    intro bs s t hst
    cases bs with
    | nil =>
      simp only [List.flatMap_cons, List.append_assoc] at hst
      exact absurd hst (hend _ _ _)
    | cons b bs =>
      simp only [List.flatMap_cons, List.append_assoc] at hst
      obtain ⟨rfl, htail⟩ := h _ _ _ _ hst
      obtain ⟨rfl, hrest⟩ := ih bs s t (by simpa only [List.append_assoc] using htail)
      exact ⟨rfl, hrest⟩

/-- A sequence of such texts with a symbol between them, ended by another one with which none of
them begins. -/
theorem Delimits.separated {enc : α → List τ} {sep e : τ} (h : Delimits enc) (hsep : sep ≠ e)
    (he : ∀ a, ∃ x, (enc a).head? = some x ∧ x ≠ e) :
    Delimits fun as : List α => [sep].intercalate (as.map enc) ++ [e] := by
  have hend (a : α) (s t : List τ) : enc a ++ s ≠ e :: t := by
    obtain ⟨x, hx, hne⟩ := he a
    obtain ⟨u, hu⟩ := List.head?_eq_some_iff.mp hx
    rw [hu]
    exact fun heq => hne (List.cons.inj heq).1
  -- behind the first text stands the separator or the end
  have hrest (a : α) (as : List α) (s : List τ) : ∃ u,
      [sep].intercalate ((a :: as).map enc) ++ [e] ++ s = enc a ++ u ∧
        (as = [] ∧ u = e :: s ∨ ∃ b bs, as = b :: bs ∧
          u = sep :: ([sep].intercalate ((b :: bs).map enc) ++ [e] ++ s)) := by
    cases as with
    | nil => exact ⟨e :: s, by simp, .inl ⟨rfl, rfl⟩⟩
    | cons b bs => exact ⟨_, by simp [List.intercalate_cons_cons], .inr ⟨b, bs, rfl, rfl⟩⟩
  intro as
  induction as with
  | nil =>
    intro bs s t hst
    cases bs with
    | nil => exact ⟨rfl, (List.cons.inj hst).2⟩
    | cons b bs =>
      obtain ⟨u, hu, -⟩ := hrest b bs t
      rw [hu] at hst
      exact absurd hst.symm (hend b u s)
  | cons a as ih =>
    intro bs s t hst
    obtain ⟨u, hu, has⟩ := hrest a as s
    cases bs with
    | nil =>
      rw [hu] at hst
      exact absurd hst (hend a u t)
    | cons b bs =>
      obtain ⟨v, hv, hbs⟩ := hrest b bs t
      rw [hu, hv] at hst
      obtain ⟨rfl, htail⟩ := h _ _ _ _ hst
      rcases has with ⟨rfl, rfl⟩ | ⟨a', as', rfl, rfl⟩
      · rcases hbs with ⟨rfl, rfl⟩ | ⟨b', bs', rfl, rfl⟩
        · exact ⟨rfl, (List.cons.inj htail).2⟩
        · exact absurd (List.cons.inj htail).1.symm hsep
      · rcases hbs with ⟨rfl, rfl⟩ | ⟨b', bs', rfl, rfl⟩
        · exact absurd (List.cons.inj htail).1 hsep
        · obtain ⟨heq, hst⟩ := ih (b' :: bs') s t (List.cons.inj htail).2
          exact ⟨congrArg _ heq, hst⟩

end Delimited
