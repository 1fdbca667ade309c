import Mathlib.Data.List.Infix

/-!
# Lib.Run

Runs of a machine, once with a step function and once with a labelled step relation.

* `exec_preserves`, `Steps.preserves`, `Each.preserves`: the invariant rules.
* `exec_until`: what holds until some step of a kind holds to the end, or such a step is in the run.
* `exec_perm`: steps that commute can be taken in any order.
* `exec_always_iff`, `Each.always_iff`: if a step keeps a property exactly when a condition holds
  before it, then a run satisfies the property throughout exactly when every one of its steps meets
  the condition.
* `Each.collects`: an invariant over what the states of a run have contributed so far.
* `Awaits.of_step`: no step of a kind is taken before one of another kind.
-/

namespace Run

variable {σ : Type*} {α : Type*}

/-! ## Step functions -/

section Function

variable (apply : α → σ → σ)

def exec (as : List α) (s : σ) : σ := as.foldl (fun s a => apply a s) s

@[simp] theorem exec_nil (s : σ) : exec apply [] s = s := rfl

@[simp] theorem exec_cons (a : α) (as : List α) (s : σ) :
    exec apply (a :: as) s = exec apply as (apply a s) := rfl

@[simp] theorem exec_append (as bs : List α) (s : σ) :
    exec apply (as ++ bs) s = exec apply bs (exec apply as s) := List.foldl_append

variable {apply}

theorem exec_preserves {P : σ → Prop} {as : List α}
    (hstep : ∀ a ∈ as, ∀ s, P s → P (apply a s)) : ∀ {s : σ}, P s → P (exec apply as s) := by
  induction as with
  | nil => intro s h; exact h
  | cons a as ih =>
    intro s h
    exact ih (fun b hb => hstep b (by simp [hb])) (hstep a (by simp) s h)

/-- What a step can only end by being a `C` holds to the end of a run, or up to a `C` in it. -/
theorem exec_until {P : σ → Prop} {C : σ → α → Prop} {as : List α}
    (hstep : ∀ a ∈ as, ∀ s, P s → P (apply a s) ∨ C s a) :
    ∀ {s : σ}, P s → P (exec apply as s) ∨
      ∃ pre a post, as = pre ++ a :: post ∧ C (exec apply pre s) a := by
  induction as with
  | nil => intro s h; exact .inl h
  | cons a as ih =>
    intro s h
    rcases hstep a (by simp) s h with hP | hC
    · rcases ih (fun b hb => hstep b (by simp [hb])) hP with hend | ⟨pre, b, post, rfl, hC⟩
      · exact .inl hend
      · exact .inr ⟨a :: pre, b, post, rfl, hC⟩
    · exact .inr ⟨[], a, as, rfl, hC⟩

/-- Steps that commute can be taken in any order. -/
theorem exec_perm {as bs : List α} (h : as.Perm bs)
    (hcomm : ∀ a ∈ as, ∀ b ∈ as, ∀ s, apply b (apply a s) = apply a (apply b s)) (s : σ) :
    exec apply as s = exec apply bs s :=
  h.foldl_eq' (fun a ha b hb s => hcomm a ha b hb s) s

/-- What holds at every step of a run, from the first one on. -/
theorem steps_cons_iff {R : σ → α → Prop} {a : α} {as : List α} {s : σ} :
    (∀ pre b, pre ++ [b] <+: a :: as → R (exec apply pre s) b) ↔
      R s a ∧ ∀ pre b, pre ++ [b] <+: as → R (exec apply pre (apply a s)) b := by
  constructor
  · intro h
    refine ⟨h [] a (by simp), fun pre b hpre => ?_⟩
    exact h (a :: pre) b (List.cons_prefix_cons.mpr ⟨rfl, hpre⟩)
  · rintro ⟨hfirst, hrest⟩ pre b hpre
    cases pre with
    | nil =>
      obtain rfl : b = a := (List.cons_prefix_cons.mp hpre).1
      exact hfirst
    | cons a' pre =>
      obtain ⟨rfl, htail⟩ := List.cons_prefix_cons.mp hpre
      exact hrest pre b htail

/-- `I` is an invariant under which the step `a` keeps `P` exactly when `C s a`. -/
theorem exec_always_iff {I P : σ → Prop} {C : σ → α → Prop} {as : List α} {s : σ} (hI : I s)
    (hP : P s) (hinv : ∀ a ∈ as, ∀ s, I s → I (apply a s))
    (hstep : ∀ a ∈ as, ∀ s, I s → P s → (P (apply a s) ↔ C s a)) :
    (∀ pre, pre <+: as → P (exec apply pre s)) ↔
      ∀ pre a, pre ++ [a] <+: as → C (exec apply pre s) a := by
  have hinv' : ∀ pre, pre <+: as → I (exec apply pre s) := fun pre hpre =>
    exec_preserves (fun a ha => hinv a (hpre.subset ha)) hI
  have hmem : ∀ {pre a}, pre ++ [a] <+: as → a ∈ as := fun hpre => hpre.subset (by simp)
  have hinit : ∀ {pre a}, pre ++ [a] <+: as → pre <+: as := fun hpre =>
    (List.prefix_append _ _).trans hpre
  constructor
  · intro h pre a hpre
    refine (hstep a (hmem hpre) _ (hinv' pre (hinit hpre)) (h pre (hinit hpre))).mp ?_
    have := h _ hpre
    rwa [exec_append] at this
  · intro h pre
    induction pre using List.reverseRecOn with
    | nil => intro _; exact hP
    | append_singleton pre a ih =>
      intro hpre
      rw [exec_append]
      exact (hstep a (hmem hpre) _ (hinv' pre (hinit hpre)) (ih (hinit hpre))).mpr (h pre a hpre)

end Function

/-! ## Step relations -/

/-- `Steps Step s as t`: the labels `as` lead from `s` to `t`. -/
inductive Steps (Step : σ → α → σ → Prop) : σ → List α → σ → Prop where
  | nil (s : σ) : Steps Step s [] s
  | cons {s t u : σ} {a : α} {as : List α} (hstep : Step s a t) (hrest : Steps Step t as u) :
    Steps Step s (a :: as) u

namespace Steps

variable {Step : σ → α → σ → Prop} {s t u : σ} {as bs : List α}

theorem single {a : α} (h : Step s a t) : Steps Step s [a] t := .cons h (.nil t)

theorem append (h : Steps Step s as t) (h' : Steps Step t bs u) : Steps Step s (as ++ bs) u := by
  induction h with
  | nil => exact h'
  | cons hstep _ ih => exact .cons hstep (ih h')

theorem imp {Step' : σ → α → σ → Prop} (himp : ∀ {s a t}, Step s a t → Step' s a t)
    (h : Steps Step s as t) : Steps Step' s as t := by
  induction h with
  | nil s => exact .nil s
  | cons hstep _ ih => exact .cons (himp hstep) ih

theorem preserves {P : σ → Prop} (hstep : ∀ {s a t}, Step s a t → P s → P t)
    (h : Steps Step s as t) (hs : P s) : P t := by
  induction h with
  | nil => exact hs
  | cons hst _ ih => exact ih (hstep hst hs)

end Steps

/-! ## Paths -/

/-- Along the path from `s`, given by its labels and the states they lead to, `R` relates each state
to the next. -/
def Each (R : σ → α → σ → Prop) : σ → List (α × σ) → Prop
  | _, [] => True
  | s, (a, t) :: path => R s a t ∧ Each R t path

theorem each_target {P : σ → Prop} {path : List (α × σ)} :
    ∀ {s : σ}, Each (fun _ _ t => P t) s path ↔ ∀ x ∈ path, P x.2 := by
  induction path with
  | nil => simp [Each]
  | cons x path ih =>
    intro s
    simp [Each, ih]

theorem each_label {p : α → Prop} {path : List (α × σ)} :
    ∀ {s : σ}, Each (fun _ a _ => p a) s path ↔ ∀ x ∈ path, p x.1 := by
  induction path with
  | nil => simp [Each]
  | cons x path ih =>
    intro s
    simp [Each, ih]

namespace Each

variable {Step Q C : σ → α → σ → Prop} {s : σ} {path : List (α × σ)}

theorem preserves {P : σ → Prop} (hstep : ∀ {s a t}, Step s a t → P s → P t)
    (h : Each Step s path) (hs : P s) : ∀ x ∈ path, P x.2 := by
  induction path generalizing s with
  | nil => simp
  | cons x path ih =>
    obtain ⟨hfirst, hrest⟩ := h
    have ht := hstep hfirst hs
    intro y hy
    rcases List.mem_cons.mp hy with rfl | hy
    · exact ht
    · exact ih hrest ht y hy

theorem with_invariant {I : σ → Prop} (hstep : ∀ {s a t}, Step s a t → I s → I t)
    (h : Each Step s path) (hI : I s) : Each (fun s a t => I s ∧ Step s a t) s path := by
  induction path generalizing s with
  | nil => trivial
  | cons x path ih => exact ⟨⟨hI, h.1⟩, ih h.2 (hstep h.1 hI)⟩

/-- `I` is an invariant under which a step from `P` satisfies `Q` exactly when it meets `C`, and
leads to `P` again when it does. -/
theorem iff_of_step {I P : σ → Prop} (hinv : ∀ {s a t}, Step s a t → I s → I t)
    (hnext : ∀ {s a t}, Step s a t → I s → P s → Q s a t → P t)
    (hstep : ∀ {s a t}, Step s a t → I s → P s → (Q s a t ↔ C s a t))
    (h : Each Step s path) (hI : I s) (hP : P s) : Each Q s path ↔ Each C s path := by
  induction path generalizing s with
  | nil => exact Iff.rfl
  | cons x path ih =>
    obtain ⟨hfirst, hrest⟩ := h
    have hhead := hstep hfirst hI hP
    have htail (hq : Q s x.1 x.2) : Each Q x.2 path ↔ Each C x.2 path :=
      ih hrest (hinv hfirst hI) (hnext hfirst hI hP hq)
    constructor
    · rintro ⟨hq, hqs⟩
      exact ⟨hhead.mp hq, (htail hq).mp hqs⟩
    · rintro ⟨hc, hcs⟩
      exact ⟨hhead.mpr hc, (htail (hhead.mpr hc)).mpr hcs⟩

theorem always_iff {I P : σ → Prop} (hinv : ∀ {s a t}, Step s a t → I s → I t)
    (hstep : ∀ {s a t}, Step s a t → I s → P s → (P t ↔ C s a t))
    (h : Each Step s path) (hI : I s) (hP : P s) : (∀ x ∈ path, P x.2) ↔ Each C s path := by
  rw [← each_target (P := P) (s := s)]
  exact h.iff_of_step (I := I) (P := P) hinv (fun _ _ _ hq => hq) hstep hI hP

/-- `I` is an invariant under which a step that meets `C` keeps `P`. -/
theorem always_of {I P : σ → Prop} (hinv : ∀ {s a t}, Step s a t → I s → I t)
    (hstep : ∀ {s a t}, Step s a t → I s → P s → C s a t → P t)
    (h : Each Step s path) (hC : Each C s path) (hI : I s) (hP : P s) : ∀ x ∈ path, P x.2 := by
  induction path generalizing s with
  | nil => simp
  | cons x path ih =>
    obtain ⟨hfirst, hrest⟩ := h
    obtain ⟨hc, hcs⟩ := hC
    have ht := hstep hfirst hI hP hc
    intro y hy
    rcases List.mem_cons.mp hy with rfl | hy
    · exact ht
    · exact ih hrest hcs (hinv hfirst hI) ht y hy

theorem imp {R R' : σ → α → σ → Prop} (himp : ∀ s a t, R s a t → R' s a t) (h : Each R s path) :
    Each R' s path := by
  induction path generalizing s with
  | nil => trivial
  | cons x path ih => exact ⟨himp _ _ _ h.1, ih h.2⟩

theorem relabel {β : Type*} {R : σ → α → σ → Prop} {R' : σ → β → σ → Prop} (g : α → β)
    (himp : ∀ s a t, R s a t → R' s (g a) t) (h : Each R s path) :
    Each R' s (path.map fun x => (g x.1, x.2)) := by
  induction path generalizing s with
  | nil => trivial
  | cons x path ih => exact ⟨himp _ _ _ h.1, ih h.2⟩

theorem and {R R' : σ → α → σ → Prop} (h : Each R s path) (h' : Each R' s path) :
    Each (fun s a t => R s a t ∧ R' s a t) s path := by
  induction path generalizing s with
  | nil => trivial
  | cons x path ih => exact ⟨⟨h.1, h'.1⟩, ih h.2 h'.2⟩

theorem tail {R : σ → α → σ → Prop} {x : α × σ} {pre post : List (α × σ)} :
    ∀ {s : σ}, Each R s (pre ++ x :: post) → Each R x.2 post := by
  induction pre with
  | nil => exact fun h => h.2
  | cons y pre ih => exact fun h => ih h.2

/-- `I V` is kept while `V` collects what the states contribute by `F`. -/
theorem collects {β : Type*} {I : (β → Prop) → σ → Prop} {F : σ → β → Prop}
    (hstep : ∀ {V V' : β → Prop} {s a t}, Step s a t → (∀ b, V b → V' b) → (∀ b, F s b → V' b) →
      I V s → I V' t) :
    ∀ {s : σ} {V : β → Prop} {path pre : List (α × σ)} {x : α × σ} {post : List (α × σ)},
      Each Step s path → I V s → path = pre ++ x :: post →
        I (fun b => V b ∨ ∃ u ∈ s :: pre.map Prod.snd, F u b) x.2 := by
  intro s V path pre
  induction pre generalizing s V path with
  | nil =>
    rintro x post h hI rfl
    exact hstep h.1 (fun _ => .inl) (fun b hb => .inr ⟨s, by simp, hb⟩) hI
  | cons y pre ih =>
    rintro x post h hI rfl
    have hy : I (fun b => V b ∨ F s b) y.2 := hstep h.1 (fun _ => .inl) (fun _ => .inr) hI
    have hx := ih h.2 hy rfl
    refine cast (congrArg (I · x.2) (funext fun b => propext ?_)) hx
    simp only [List.map_cons, List.mem_cons, exists_eq_or_imp, or_assoc]

theorem join {R : σ → α → σ → Prop} {x : α × σ} {pre post : List (α × σ)}
    (hpost : Each R x.2 post) : ∀ {s : σ}, Each R s (pre ++ [x]) → Each R s (pre ++ x :: post) := by
  induction pre with
  | nil => exact fun h => ⟨h.1, hpost⟩
  | cons y pre ih => exact fun h => ⟨h.1, ih h.2⟩

end Each

/-- Along the path from `s`, no step is a `Q` before one has been a `P`. -/
def Awaits (P Q : σ → α → σ → Prop) : σ → List (α × σ) → Prop
  | _, [] => True
  | s, (a, t) :: path => ¬ Q s a t ∧ (P s a t ∨ Awaits P Q t path)

namespace Awaits

variable {Step P Q : σ → α → σ → Prop} {path : List (α × σ)}

/-- `I` excludes `Q`, and is kept up to a `P`. -/
theorem of_step {I : σ → Prop}
    (hstep : ∀ {s a t}, Step s a t → I s → ¬ Q s a t ∧ (P s a t ∨ I t)) :
    ∀ {s : σ}, Each Step s path → I s → Awaits P Q s path := by
  induction path with
  | nil => exact fun _ _ => trivial
  | cons x path ih =>
    intro s h hI
    obtain ⟨hQ, hnext⟩ := hstep h.1 hI
    exact ⟨hQ, hnext.imp_right fun ht => ih h.2 ht⟩

/-- Where no step is a `P`, none may be a `Q`. -/
theorem iff_never : ∀ {s : σ}, Each (fun s a t => ¬ P s a t) s path →
    (Awaits P Q s path ↔ Each (fun s a t => ¬ Q s a t) s path) := by
  induction path with
  | nil => exact fun _ => Iff.rfl
  | cons x path ih =>
    intro s hP
    have hrest := ih hP.2
    exact and_congr_right fun _ => (or_iff_right hP.1).trans hrest

end Awaits

theorem Steps.exists_path {Step : σ → α → σ → Prop} {s t : σ} {as : List α}
    (h : Steps Step s as t) :
    ∃ path, Each Step s path ∧ path.map Prod.fst = as ∧ (as ≠ [] → ∃ a, (a, t) ∈ path) := by
  induction h with
  | nil s => exact ⟨[], trivial, rfl, by simp⟩
  | @cons s t u a as hstep hrest ih =>
    obtain ⟨path, hpath, rfl, hlast⟩ := ih
    refine ⟨(a, t) :: path, ⟨hstep, hpath⟩, rfl, fun _ => ?_⟩
    cases path with
    | nil =>
      cases hrest
      exact ⟨a, by simp⟩
    | cons x path =>
      obtain ⟨b, hb⟩ := hlast (by simp)
      exact ⟨b, List.mem_cons_of_mem _ hb⟩

theorem Steps.exists_path_to {Step : σ → α → σ → Prop} {s t u : σ} {as : List α} {a : α}
    (h : Steps Step s as t) (hlast : Step t a u) :
    ∃ path, Each Step s (path ++ [(a, u)]) ∧ path.map Prod.fst = as ∧
      ∀ R : σ → α → σ → Prop, Each R s (path ++ [(a, u)]) → R t a u := by
  induction h with
  | nil s => exact ⟨[], ⟨hlast, trivial⟩, rfl, fun R hR => hR.1⟩
  | @cons s t v b as hstep hrest ih =>
    obtain ⟨path, hpath, rfl, hto⟩ := ih hlast
    exact ⟨(b, t) :: path, ⟨hstep, hpath⟩, rfl, fun R hR => hto R hR.2⟩

/-! ## Partial step functions -/

section Partial

variable (act : σ → α → Option σ)

/-- The state after the steps `as`, if all of them can be taken. -/
def tryExec : List α → σ → Option σ
  | [], s => some s
  | a :: as, s => (act s a).bind (tryExec as)

variable {act}

theorem Steps.of_tryExec {as : List α} : ∀ {s t : σ}, tryExec act as s = some t →
    Steps (fun s a t => act s a = some t) s as t := by
  induction as with
  | nil =>
    intro s t h
    cases h
    exact .nil s
  | cons a as ih =>
    intro s t h
    obtain ⟨u, hu, h⟩ := Option.bind_eq_some_iff.mp h
    exact .cons hu (ih h)

theorem exists_tryExec {P : σ → Prop} [DecidablePred P] {as : List α} {s : σ}
    (h : (tryExec act as s).any (fun t => decide (P t)) = true) :
    ∃ t, tryExec act as s = some t ∧ P t := by
  obtain ⟨t, ht, hp⟩ := (Option.any_eq_true _ _).mp h
  exact ⟨t, ht, of_decide_eq_true hp⟩

/-- Does every step of the run satisfy `q`? -/
def allSteps (act : σ → α → Option σ) (q : σ → α → σ → Bool) : List α → σ → Bool
  | [], _ => true
  | a :: as, s =>
    match act s a with
    | none => true
    | some t => q s a t && allSteps act q as t

theorem Each.of_allSteps {q : σ → α → σ → Bool} {path : List (α × σ)} :
    ∀ {s : σ}, Each (fun s a t => act s a = some t) s path →
      allSteps act q (path.map Prod.fst) s = true → Each (fun s a t => q s a t = true) s path := by
  induction path with
  | nil => intro s _ _; trivial
  | cons x path ih =>
    intro s h hall
    have hall : (match act s x.1 with
      | none => true
      | some t => q s x.1 t && allSteps act q (path.map Prod.fst) t) = true := hall
    rw [h.1] at hall
    obtain ⟨hfirst, hrest⟩ := Bool.and_eq_true_iff.mp hall
    exact ⟨hfirst, ih h.2 hrest⟩

theorem exists_checked (act : σ → α → Option σ) (q : σ → α → σ → Bool) (as : List α) (s : σ)
    (hrun : (tryExec act as s).isSome = true) (hall : allSteps act q as s = true) :
    ∃ path, Each (fun s a t => act s a = some t) s path ∧ path.map Prod.fst = as ∧
      Each (fun s a t => q s a t = true) s path := by
  obtain ⟨t, ht⟩ := Option.isSome_iff_exists.mp hrun
  obtain ⟨path, hpath, rfl, _⟩ := (Steps.of_tryExec ht).exists_path
  exact ⟨path, hpath, rfl, .of_allSteps hpath hall⟩

end Partial

end Run
