import Mathlib.Data.List.Basic

/-!
# Lib.Cursor

Readers that move a cursor over a list of symbols and may fail.

* `Reads p w a`: wherever the symbols `w` lie ahead, `p` returns `a` and moves past exactly `w`.
* `Accepts p Q`: every success of `p` is such a reading, and its result satisfies `Q`.
* `Consumes p R`: every success of `p` takes some symbols off the front, which `R` relates to the
  result.
* `Fixed p n f`: `p` takes the next `n` symbols and returns `f` of them; it reads and accepts.

All of them compose along `bind`, the first three also along counted loops, so a reader assembled
from primitives inherits them from its parts. `Reads.prefix_free`: no string a reader reads is a
proper prefix of another.
-/

namespace Cursor

universe u v w

/-- A cursor type: what lies ahead, and moving past a number of symbols. -/
class Tape (σ : Type u) (τ : outParam (Type v)) where
  Valid : σ → Prop
  rest : σ → List τ
  skip : Nat → σ → σ
  valid_skip : ∀ {c n}, Valid c → n ≤ (rest c).length → Valid (skip n c)
  rest_skip : ∀ {c n}, Valid c → n ≤ (rest c).length → rest (skip n c) = (rest c).drop n
  skip_zero : ∀ c, skip 0 c = c
  skip_skip : ∀ m n c, skip n (skip m c) = skip (m + n) c
  exists_rest : ∀ l, ∃ c, Valid c ∧ rest c = l

variable {σ : Type u} {τ : Type v} [Tape σ τ] {ε : Type u} {α β : Type u}

open Tape

abbrev Reader (σ ε α : Type u) := StateT σ (Except ε) α

def Reads (p : Reader σ ε α) (w : List τ) (a : α) : Prop :=
  ∀ c t, Valid c → rest c = w ++ t → p.run c = .ok (a, skip w.length c)

def Accepts (p : Reader σ ε α) (Q : α → Prop) : Prop :=
  ∀ c a c', Valid c → p.run c = .ok (a, c') →
    Q a ∧ ∃ w t, rest c = w ++ t ∧ c' = skip w.length c ∧ Reads p w a

theorem run_bind_ok {p : Reader σ ε α} {f : α → Reader σ ε β} {c c' : σ} {a : α}
    (h : p.run c = .ok (a, c')) : (p >>= f).run c = (f a).run c' := by
  rw [StateT.run_bind, h]; rfl

theorem run_bind_inv {p : Reader σ ε α} {f : α → Reader σ ε β} {c c'' : σ} {b : β}
    (h : (p >>= f).run c = .ok (b, c'')) :
    ∃ a c', p.run c = .ok (a, c') ∧ (f a).run c' = .ok (b, c'') := by
  rw [StateT.run_bind] at h
  cases hp : p.run c with
  | error e => rw [hp] at h; cases h
  | ok x => rw [hp] at h; exact ⟨x.1, x.2, rfl, h⟩

/-! ## Readings -/

theorem valid_rest_skip {c : σ} {w t : List τ} (hv : Valid c) (hr : rest c = w ++ t) :
    Valid (skip w.length c) ∧ rest (skip w.length c) = t := by
  have hlen : w.length ≤ (rest c).length := by simp [hr]
  refine ⟨valid_skip hv hlen, ?_⟩
  rw [rest_skip hv hlen, hr, List.drop_left]

namespace Reads

theorem pure (a : α) : Reads (Pure.pure a : Reader σ ε α) [] a := by
  intro c t _ _
  rw [StateT.run_pure, List.length_nil, skip_zero]; rfl

theorem bind {p : Reader σ ε α} {f : α → Reader σ ε β} {w v : List τ} {a : α} {b : β}
    (hp : Reads p w a) (hf : Reads (f a) v b) : Reads (p >>= f) (w ++ v) b := by
  intro c t hv hr
  rw [List.append_assoc] at hr
  obtain ⟨hv', hr'⟩ := valid_rest_skip hv hr
  rw [run_bind_ok (hp c _ hv hr), hf _ t hv' hr', skip_skip, List.length_append]

theorem bind_nil {p : Reader σ ε α} {f : α → Reader σ ε β} {v : List τ} {a : α} {b : β}
    (hp : Reads p [] a) (hf : Reads (f a) v b) : Reads (p >>= f) v b :=
  hp.bind hf

/-- The last step of a reader, which packs what was read into `b`. -/
theorem map {p : Reader σ ε α} {f : α → Reader σ ε β} {w : List τ} {a : α} {b : β}
    (hp : Reads p w a) (hf : Reads (f a) [] b) : Reads (p >>= f) w b := by
  have := hp.bind hf
  rwa [List.append_nil] at this

/-- A reader is a function of what lies ahead, so nothing it reads extends to anything else it
reads. -/
theorem prefix_free {p : Reader σ ε α} {w v : List τ} {a b : α} (hw : Reads p w a)
    (hv : Reads p v b) (h : w <+: v) : w = v := by
  obtain ⟨x, rfl⟩ := h
  obtain ⟨c, hc, hr⟩ := Tape.exists_rest (σ := σ) (w ++ x)
  have e1 := hw c x hc hr
  rw [hv c [] hc (by rw [hr, List.append_nil])] at e1
  have e2 : skip (w ++ x).length c = skip w.length c := by
    injection e1 with e1; exact congrArg Prod.snd e1
  have h1 := (valid_rest_skip hc hr).2
  have h2 := (valid_rest_skip (w := w ++ x) (t := []) hc (by rw [hr, List.append_nil])).2
  rw [e2, h1] at h2
  rw [h2, List.append_nil]

theorem unique {p : Reader σ ε α} {w : List τ} {a b : α} (ha : Reads p w a) (hb : Reads p w b) :
    a = b := by
  obtain ⟨c, hc, hr⟩ := Tape.exists_rest (σ := σ) w
  have e1 := ha c [] hc (by rw [hr, List.append_nil])
  rw [hb c [] hc (by rw [hr, List.append_nil])] at e1
  injection e1 with e1
  exact (congrArg Prod.fst e1).symm

end Reads

/-! ## Accepted results -/

namespace Accepts

theorem pure {Q : α → Prop} {a : α} (h : Q a) : Accepts (Pure.pure a : Reader σ ε α) Q := by
  intro c b c' _ hrun
  rw [StateT.run_pure] at hrun
  cases hrun
  exact ⟨h, [], rest c, rfl, (skip_zero c).symm, .pure a⟩

theorem throw (e : ε) (Q : α → Prop) : Accepts (throw e : Reader σ ε α) Q := by
  intro c b c' _ hrun
  cases hrun

theorem bind {p : Reader σ ε α} {f : α → Reader σ ε β} {P : α → Prop} {Q : β → Prop}
    (hp : Accepts p P) (hf : ∀ a, P a → Accepts (f a) Q) : Accepts (p >>= f) Q := by
  intro c b c'' hv hrun
  obtain ⟨a, c', h1, h2⟩ := run_bind_inv hrun
  obtain ⟨hP, w, t, hr, rfl, hw⟩ := hp c a c' hv h1
  obtain ⟨hv', hr'⟩ := valid_rest_skip hv hr
  obtain ⟨hQ, x, y, hx, rfl, hxr⟩ := hf a hP _ b c'' hv' h2
  refine ⟨hQ, w ++ x, y, ?_, ?_, hw.bind hxr⟩
  · rw [hr, ← hr', hx, List.append_assoc]
  · rw [skip_skip, List.length_append]

theorem mono {p : Reader σ ε α} {P Q : α → Prop} (hp : Accepts p P) (h : ∀ a, P a → Q a) :
    Accepts p Q := by
  intro c a c' hv hrun
  obtain ⟨hP, hrest⟩ := hp c a c' hv hrun
  exact ⟨h a hP, hrest⟩

end Accepts

/-! ## What is taken off -/

def Consumes (p : Reader σ ε α) (R : List τ → α → Prop) : Prop :=
  ∀ c a c', Valid c → p.run c = .ok (a, c') →
    ∃ w t, rest c = w ++ t ∧ c' = skip w.length c ∧ R w a

theorem Accepts.consumes {p : Reader σ ε α} {Q : α → Prop} (h : Accepts p Q) :
    Consumes p fun w a => Q a ∧ Reads p w a := by
  intro c a c' hv hrun
  obtain ⟨hQ, w, t, hr, hc, hw⟩ := h c a c' hv hrun
  exact ⟨w, t, hr, hc, hQ, hw⟩

namespace Consumes

theorem pure {R : List τ → α → Prop} {a : α} (h : R [] a) :
    Consumes (Pure.pure a : Reader σ ε α) R := by
  intro c b c' _ hrun
  rw [StateT.run_pure] at hrun
  cases hrun
  exact ⟨[], rest c, rfl, (skip_zero c).symm, h⟩

theorem throw (e : ε) (R : List τ → α → Prop) : Consumes (throw e : Reader σ ε α) R := by
  intro c b c' _ hrun
  cases hrun

theorem bind {p : Reader σ ε α} {f : α → Reader σ ε β} {P : List τ → α → Prop}
    {R : List τ → β → Prop} (hp : Consumes p P)
    (hf : ∀ w a, P w a → Consumes (f a) fun v b => R (w ++ v) b) : Consumes (p >>= f) R := by
  intro c b c'' hv hrun
  obtain ⟨a, c', h1, h2⟩ := run_bind_inv hrun
  obtain ⟨w, t, hr, rfl, hP⟩ := hp c a c' hv h1
  obtain ⟨hv', hr'⟩ := valid_rest_skip hv hr
  obtain ⟨v, u, hx, rfl, hR⟩ := hf w a hP _ b c'' hv' h2
  refine ⟨w ++ v, u, ?_, ?_, hR⟩
  · rw [hr, ← hr', hx, List.append_assoc]
  · rw [skip_skip, List.length_append]

/-- The last step of a reader, which packs what was read into `g a`. -/
theorem map {p : Reader σ ε α} {g : α → β} {P : List τ → α → Prop} {R : List τ → β → Prop}
    (hp : Consumes p P) (hf : ∀ w a, P w a → R w (g a)) :
    Consumes (p >>= fun a => Pure.pure (g a)) R := by
  refine hp.bind fun w a hP => .pure ?_
  rw [List.append_nil]
  exact hf w a hP

theorem mono {p : Reader σ ε α} {P R : List τ → α → Prop} (hp : Consumes p P)
    (h : ∀ w a, P w a → R w a) : Consumes p R := by
  intro c a c' hv hrun
  obtain ⟨w, t, hr, hc, hP⟩ := hp c a c' hv hrun
  exact ⟨w, t, hr, hc, h w a hP⟩

end Consumes

/-! ## Checks -/

/-- A check that reads nothing. -/
def throwIf (q : Prop) [Decidable q] (e : ε) : Reader σ ε PUnit :=
  if q then throw e else pure ⟨⟩

theorem Reads.throwIf {q : Prop} [Decidable q] {e : ε} (h : ¬ q) :
    Reads (Cursor.throwIf q e : Reader σ ε PUnit) [] ⟨⟩ := by
  unfold Cursor.throwIf
  rw [if_neg h]
  exact .pure _

theorem Accepts.throwIf {q : Prop} [Decidable q] {e : ε} :
    Accepts (Cursor.throwIf q e : Reader σ ε PUnit) fun _ => ¬ q := by
  unfold Cursor.throwIf
  split
  · exact .throw e _
  · rename_i h
    exact .pure h

/-- A check in front of a reader takes nothing off. -/
theorem Consumes.check {q : Prop} [Decidable q] {e : ε} {p : Reader σ ε α} {R : List τ → α → Prop}
    (h : ¬ q → Consumes p R) : Consumes (throwIf q e >>= fun _ => p) R := by
  unfold throwIf
  split
  · intro c a c' _ hrun
    cases hrun
  · rename_i hq
    exact h hq

/-! ## Readers of a fixed width -/

/-- `p` returns `f` of the next `n` symbols, and fails when fewer lie ahead. -/
def Fixed (p : Reader σ ε α) (n : Nat) (f : List τ → α) : Prop :=
  ∀ c, Valid c →
    (n ≤ (rest c).length → p.run c = .ok (f ((rest c).take n), skip n c)) ∧
    ((rest c).length < n → ∃ e, p.run c = .error e)

namespace Fixed

variable {p : Reader σ ε α} {n : Nat} {f : List τ → α}

theorem map (h : Fixed p n f) (g : α → β) : Fixed (p >>= fun a => pure (g a)) n (g ∘ f) := by
  intro c hv
  obtain ⟨hok, herr⟩ := h c hv
  constructor
  · intro hn
    rw [run_bind_ok (hok hn)]; rfl
  · intro hn
    obtain ⟨e, he⟩ := herr hn
    refine ⟨e, ?_⟩
    rw [StateT.run_bind, he]; rfl

/-- Two readers of fixed widths in a row make one, the second of whatever the first returns. -/
theorem bind {q : α → Reader σ ε β} {m : Nat} (h : Fixed p n f)
    (hq : ∀ a, ∃ g, Fixed (q a) m g) : ∃ g, Fixed (p >>= q) (n + m) g := by
  obtain ⟨g, hg⟩ := Classical.skolem.mp hq
  refine ⟨fun w => g (f (w.take n)) (w.drop n), fun c hv => ?_⟩
  obtain ⟨hok, herr⟩ := h c hv
  by_cases hn : n ≤ (rest c).length
  · have hrest := rest_skip hv hn
    have hlen : (rest (skip n c)).length = (rest c).length - n := by rw [hrest, List.length_drop]
    obtain ⟨hok', herr'⟩ := hg (f ((rest c).take n)) (skip n c) (valid_skip hv hn)
    rw [run_bind_ok (hok hn)]
    constructor
    · intro hm
      have htake : ((rest c).take (n + m)).take n = (rest c).take n := by
        rw [List.take_take, Nat.min_eq_left (by omega)]
      have hdrop : ((rest c).take (n + m)).drop n = ((rest c).drop n).take m := by
        rw [List.drop_take, Nat.add_sub_cancel_left]
      rw [hok' (by omega), hrest, skip_skip]
      dsimp only
      rw [htake, hdrop]
    · intro hm
      exact herr' (by omega)
  · obtain ⟨e, he⟩ := herr (by omega)
    have hrun : (p >>= q).run c = .error e := by rw [StateT.run_bind, he]; rfl
    exact ⟨fun hm => absurd hm (by omega), fun _ => ⟨e, hrun⟩⟩

theorem reads (h : Fixed p n f) {w : List τ} (hw : w.length = n) : Reads p w (f w) := by
  intro c t hv hr
  have hlen : n ≤ (rest c).length := by simp [hr, hw]
  have htake : (rest c).take n = w := by rw [hr, ← hw, List.take_left]
  rw [(h c hv).1 hlen, htake, hw]

theorem accepts (h : Fixed p n f) : Accepts p fun a => ∃ w, w.length = n ∧ a = f w := by
  intro c a c' hv hrun
  obtain ⟨hok, herr⟩ := h c hv
  by_cases hn : n ≤ (rest c).length
  · rw [hok hn] at hrun
    cases hrun
    have hlen : ((rest c).take n).length = n := by simp [hn]
    refine ⟨⟨_, hlen, rfl⟩, _, _, (List.take_append_drop n _).symm, by rw [hlen], h.reads hlen⟩
  · obtain ⟨e, he⟩ := herr (by omega)
    rw [he] at hrun
    cases hrun

theorem consumes (h : Fixed p n f) : Consumes p fun w a => w.length = n ∧ a = f w := by
  intro c a c' hv hrun
  by_cases hn : n ≤ (rest c).length
  · rw [(h c hv).1 hn] at hrun
    cases hrun
    have hlen : ((rest c).take n).length = n := by simp [hn]
    exact ⟨_, _, (List.take_append_drop n _).symm, by rw [hlen], hlen, rfl⟩
  · obtain ⟨e, he⟩ := (h c hv).2 (by omega)
    rw [he] at hrun
    cases hrun

end Fixed

/-! ## Loops -/

/-- `n` readings of `p` in a row. -/
def times (p : Reader σ ε α) : Nat → Reader σ ε (List α)
  | 0 => pure []
  | n + 1 => do
    let a ← p
    let as ← times p n
    pure (a :: as)

/-- `n` readings of `p` in a row, failing at the first whose key was seen before. -/
def timesFresh {κ : Type w} [DecidableEq κ] (key : α → κ) (dup : ε) (p : Reader σ ε α) :
    Nat → List κ → Reader σ ε (List α)
  | 0, _ => pure []
  | n + 1, seen => do
    let a ← p
    if key a ∈ seen then throw dup
    else do
      let as ← timesFresh key dup p n (key a :: seen)
      pure (a :: as)

theorem Reads.times {p : Reader σ ε α} {enc : α → List τ} {as : List α}
    (h : ∀ a ∈ as, Reads p (enc a) a) : Reads (Cursor.times p as.length) (as.flatMap enc) as := by
  induction as with
  | nil => exact .pure []
  | cons a as ih =>
    have ha := h a (by simp)
    have has := ih fun x hx => h x (by simp [hx])
    exact ha.bind (has.map (.pure _))

theorem Accepts.times {p : Reader σ ε α} {Q : α → Prop} (hp : Accepts p Q) (n : Nat) :
    Accepts (Cursor.times p n) fun as => as.length = n ∧ ∀ a ∈ as, Q a := by
  induction n with
  | zero => exact .pure (by simp)
  | succ n ih =>
    refine hp.bind fun a ha => ih.bind fun as has => .pure ?_
    refine ⟨by simp [has.1], ?_⟩
    intro x hx
    rcases List.mem_cons.mp hx with rfl | hx
    · exact ha
    · exact has.2 x hx

theorem Consumes.times {p : Reader σ ε α} {R : List τ → α → Prop} (hp : Consumes p R) (n : Nat) :
    Consumes (Cursor.times p n) fun w as =>
      as.length = n ∧ ∃ ws, w = ws.flatten ∧ List.Forall₂ R ws as := by
  induction n with
  | zero => exact .pure ⟨rfl, [], rfl, .nil⟩
  | succ n ih =>
    refine hp.bind fun w a ha => ih.map ?_
    rintro _ as ⟨hlen, ws, rfl, has⟩
    exact ⟨by simp [hlen], w :: ws, rfl, .cons ha has⟩

section Fresh

variable {κ : Type w} [DecidableEq κ] {key : α → κ} {dup : ε}

theorem Consumes.timesFresh {p : Reader σ ε α} {R : List τ → α → Prop} (hp : Consumes p R)
    (n : Nat) : ∀ seen : List κ, Consumes (Cursor.timesFresh key dup p n seen) fun w as =>
      as.length = n ∧ ∃ ws, w = ws.flatten ∧ List.Forall₂ R ws as := by
  induction n with
  | zero => intro seen; exact .pure ⟨rfl, [], rfl, .nil⟩
  | succ n ih =>
    intro seen
    refine hp.bind fun w a ha => ?_
    split
    · exact .throw _ _
    · refine (ih (key a :: seen)).map ?_
      rintro _ as ⟨hlen, ws, rfl, has⟩
      exact ⟨by simp [hlen], w :: ws, rfl, .cons ha has⟩

theorem Reads.timesFresh {p : Reader σ ε α} {enc : α → List τ} {as : List α} :
    ∀ {seen : List κ}, (∀ a ∈ as, Reads p (enc a) a) → (as.map key).Nodup →
      (∀ a ∈ as, key a ∉ seen) →
      Reads (Cursor.timesFresh key dup p as.length seen) (as.flatMap enc) as := by
  induction as with
  | nil => intro seen _ _ _; exact .pure []
  | cons a as ih =>
    intro seen h hnd hseen
    have ha := h a (by simp)
    obtain ⟨hfresh, hnd⟩ := List.nodup_cons.mp hnd
    have hout : ∀ x ∈ as, key x ∉ key a :: seen := by
      intro x hx hmem
      rcases List.mem_cons.mp hmem with he | hmem
      · exact hfresh (he ▸ List.mem_map_of_mem hx)
      · exact hseen x (by simp [hx]) hmem
    have has := ih (fun x hx => h x (by simp [hx])) hnd hout
    refine ha.bind ?_
    rw [if_neg (hseen a (by simp))]
    exact has.map (.pure _)

theorem Accepts.timesFresh {p : Reader σ ε α} {Q : α → Prop} (hp : Accepts p Q) (n : Nat) :
    ∀ seen : List κ, Accepts (Cursor.timesFresh key dup p n seen) fun as =>
      as.length = n ∧ (∀ a ∈ as, Q a) ∧ (as.map key).Nodup ∧ ∀ a ∈ as, key a ∉ seen := by
  induction n with
  | zero => intro seen; exact .pure (by simp)
  | succ n ih =>
    intro seen
    refine hp.bind fun a ha => ?_
    split
    · exact .throw _ _
    · rename_i hfresh
      refine (ih (key a :: seen)).bind fun as has => .pure ?_
      obtain ⟨hlen, hQ, hnd, hout⟩ := has
      refine ⟨by simp [hlen], ?_, ?_, ?_⟩
      · intro x hx
        rcases List.mem_cons.mp hx with rfl | hx
        · exact ha
        · exact hQ x hx
      · refine List.nodup_cons.mpr ⟨?_, hnd⟩
        intro hmem
        obtain ⟨x, hx, he⟩ := List.mem_map.mp hmem
        exact hout x hx (by simp [he])
      · intro x hx
        rcases List.mem_cons.mp hx with rfl | hx
        · exact hfresh
        · exact fun hmem => hout x hx (by simp [hmem])

end Fresh

end Cursor
