import AdapterFabric.Lib.Cursor
import Mathlib.Data.List.Forall2

/-!
# Lib.Layout

The shape of an encoded string, as far as the lengths in it tell.

A `Layout` is put together from stretches of a fixed length, blocks behind their length, lists
behind their count, and flags: single symbols of which several may be read as the same value.
`flags` finds the flags of a string, looking at nothing but lengths and counts.

* `Coded l w v`: `w` and `v` are equally long, `w` is shaped by `l`, and it is `v` exactly when all
  its flags are among those a writer uses.
* `Codes p ok r enc l`: whatever the reader `r` takes off is so coded with respect to the encoding
  of what it returns. `CodesFrom` composes it along the fields of a record.
* `Codes.exact`: without flags a reader takes off nothing but encodings.
-/

namespace Cursor

universe u v

/-- How lengths and counts are written: in how many symbols, and what these say. -/
structure Prefix (τ : Type v) where
  width : Nat
  count : List τ → Nat

inductive Layout where
  | skip (n : Nat)
  | flag
  /-- a length, and as many symbols -/
  | block
  | pair (first second : Layout)
  /-- a count, and as many strings of the shape -/
  | list (each : Layout)

namespace Layout

variable {τ : Type v}

/-- The flags of `n` strings in a row, and what follows them. -/
def eachFlags (walk : List τ → Option (List τ × List τ)) : Nat → List τ → Option (List τ × List τ)
  | 0, s => some ([], s)
  | n + 1, s => (walk s).bind fun x => (eachFlags walk n x.2).map fun y => (x.1 ++ y.1, y.2)

/-- The flags in the front part of a string that has the shape, and what follows that part. -/
def flags (p : Prefix τ) : Layout → List τ → Option (List τ × List τ)
  | skip n, s => if n ≤ s.length then some ([], s.drop n) else none
  | flag, s => s.head?.map fun x => ([x], s.tail)
  | block, s =>
    if p.width + p.count (s.take p.width) ≤ s.length then
      some ([], s.drop (p.width + p.count (s.take p.width)))
    else none
  | pair l l', s => (l.flags p s).bind fun x => (l'.flags p x.2).map fun y => (x.1 ++ y.1, y.2)
  | list l, s =>
    if p.width ≤ s.length then eachFlags (l.flags p) (p.count (s.take p.width)) (s.drop p.width)
    else none

/-- No part of the shape is a flag. -/
def rigid : Layout → Bool
  | skip _ => true
  | flag => false
  | block => true
  | pair l l' => l.rigid && l'.rigid
  | list l => l.rigid

variable {p : Prefix τ}

/-- `w` has the shape and the flags `fs`, whatever follows it. -/
def Parses (p : Prefix τ) (l : Layout) (w fs : List τ) : Prop :=
  ∀ t, l.flags p (w ++ t) = some (fs, t)

theorem parses_skip (w : List τ) : (skip w.length).Parses p w [] := by
  intro t
  simp [flags]

theorem parses_flag (x : τ) : flag.Parses p [x] [x] := by
  intro t
  rfl

theorem parses_block {h w : List τ} (hh : h.length = p.width) (hw : w.length = p.count h) :
    block.Parses p (h ++ w) [] := by
  intro t
  have htake : (h ++ w ++ t).take p.width = h := by
    rw [List.append_assoc, ← hh, List.take_left]
  have hlen : p.width + p.count h = (h ++ w).length := by rw [List.length_append, hh, hw]
  simp only [flags, htake]
  rw [hlen, if_pos (by simp), List.drop_left]

theorem Parses.pair {l l' : Layout} {w w' fs fs' : List τ} (h : l.Parses p w fs)
    (h' : l'.Parses p w' fs') : (pair l l').Parses p (w ++ w') (fs ++ fs') := by
  intro t
  simp [flags, List.append_assoc, h (w' ++ t), h' t]

theorem eachFlags_flatten {l : Layout} {ws fss : List (List τ)}
    (hws : List.Forall₂ (l.Parses p) ws fss) (t : List τ) :
    eachFlags (l.flags p) ws.length (ws.flatten ++ t) = some (fss.flatten, t) := by
  induction hws with
  | nil => rfl
  | cons hw _ ih => simp [eachFlags, List.append_assoc, hw _, ih]

theorem parses_list {l : Layout} {h : List τ} {ws fss : List (List τ)} (hh : h.length = p.width)
    (hcount : ws.length = p.count h) (hws : List.Forall₂ (l.Parses p) ws fss) :
    (list l).Parses p (h ++ ws.flatten) fss.flatten := by
  intro t
  have htake : (h ++ (ws.flatten ++ t)).take p.width = h := by rw [← hh, List.take_left]
  have hdrop : (h ++ (ws.flatten ++ t)).drop p.width = ws.flatten ++ t := by
    rw [← hh, List.drop_left]
  simp only [flags, List.append_assoc, htake, hdrop, ← hcount, eachFlags_flatten hws]
  rw [if_pos (by simp [hh])]

theorem eachFlags_nil {walk : List τ → Option (List τ × List τ)}
    (hwalk : ∀ s fs t, walk s = some (fs, t) → fs = []) :
    ∀ n s fs t, eachFlags walk n s = some (fs, t) → fs = [] := by
  intro n
  induction n with
  | zero =>
    intro s fs t h
    cases h
    rfl
  | succ n ih =>
    intro s fs t h
    obtain ⟨x, hx, h⟩ := Option.bind_eq_some_iff.mp h
    obtain ⟨y, hy, h⟩ := Option.map_eq_some_iff.mp h
    cases h
    rw [hwalk s x.1 x.2 hx, ih _ y.1 y.2 hy]
    rfl

theorem flags_of_rigid {l : Layout} (hl : l.rigid = true) :
    ∀ s fs t, l.flags p s = some (fs, t) → fs = [] := by
  induction l with
  | skip n =>
    intro s fs t h
    simp only [flags, Option.ite_none_right_eq_some] at h
    cases h.2
    rfl
  | flag => cases hl
  | block =>
    intro s fs t h
    simp only [flags, Option.ite_none_right_eq_some] at h
    cases h.2
    rfl
  | pair l l' ih ih' =>
    intro s fs t h
    obtain ⟨hr, hr'⟩ := Bool.and_eq_true_iff.mp hl
    obtain ⟨x, hx, h⟩ := Option.bind_eq_some_iff.mp h
    obtain ⟨y, hy, h⟩ := Option.map_eq_some_iff.mp h
    cases h
    rw [ih hr s x.1 x.2 hx, ih' hr' _ y.1 y.2 hy]
    rfl
  | list l ih =>
    intro s fs t h
    simp only [flags, Option.ite_none_right_eq_some] at h
    exact eachFlags_nil (ih hl) _ _ _ _ h.2

end Layout

/-! ## Strings that differ from an encoding in flags only -/

section Coded

variable {τ : Type v} (p : Prefix τ) (ok : τ → Prop)

def Coded (l : Layout) (w v : List τ) : Prop :=
  ∃ fs, l.Parses p w fs ∧ w.length = v.length ∧ (w = v ↔ ∀ x ∈ fs, ok x)

variable {p ok}

theorem Coded.of_eq {l : Layout} {w : List τ} (h : l.Parses p w []) : Coded p ok l w w :=
  ⟨[], h, rfl, by simp⟩

theorem Coded.skip {n : Nat} {w : List τ} (h : w.length = n) : Coded p ok (.skip n) w w := by
  subst h
  exact .of_eq (Layout.parses_skip w)

theorem Coded.block {h w : List τ} (hh : h.length = p.width) (hw : w.length = p.count h) :
    Coded p ok .block (h ++ w) (h ++ w) :=
  .of_eq (Layout.parses_block hh hw)

/-- A flag is written as one of the flags that are used. -/
theorem Coded.flag {x y : τ} (h : x = y ↔ ok x) : Coded p ok .flag [x] [y] :=
  ⟨[x], Layout.parses_flag x, rfl, by simpa using h⟩

theorem append_eq_iff {w v w' v' : List τ} (h : w.length = v.length) :
    w ++ w' = v ++ v' ↔ w = v ∧ w' = v' := by
  constructor
  · exact fun he => List.append_inj he h
  · rintro ⟨rfl, rfl⟩
    rfl

theorem Coded.pair {l l' : Layout} {w v w' v' : List τ} (h : Coded p ok l w v)
    (h' : Coded p ok l' w' v') : Coded p ok (.pair l l') (w ++ w') (v ++ v') := by
  obtain ⟨fs, hp, hlen, hiff⟩ := h
  obtain ⟨fs', hp', hlen', hiff'⟩ := h'
  refine ⟨fs ++ fs', hp.pair hp', by simp [hlen, hlen'], ?_⟩
  rw [append_eq_iff hlen, hiff, hiff', List.forall_mem_append]

theorem coded_flatten {l : Layout} {ws vs : List (List τ)}
    (hws : List.Forall₂ (Coded p ok l) ws vs) :
    ∃ fss, List.Forall₂ (l.Parses p) ws fss ∧ ws.flatten.length = vs.flatten.length ∧
      (ws.flatten = vs.flatten ↔ ∀ x ∈ fss.flatten, ok x) := by
  induction hws with
  | nil => exact ⟨[], .nil, rfl, by simp⟩
  | cons hw _ ih =>
    obtain ⟨fs, hp, hlen, hiff⟩ := hw
    obtain ⟨fss, hps, hlens, hiffs⟩ := ih
    refine ⟨fs :: fss, .cons hp hps, by simp only [List.flatten_cons, List.length_append, *], ?_⟩
    rw [List.flatten_cons, List.flatten_cons, append_eq_iff hlen, hiff, hiffs, List.flatten_cons,
      List.forall_mem_append]

theorem Coded.list {l : Layout} {h : List τ} {ws vs : List (List τ)} (hh : h.length = p.width)
    (hcount : ws.length = p.count h) (hws : List.Forall₂ (Coded p ok l) ws vs) :
    Coded p ok (.list l) (h ++ ws.flatten) (h ++ vs.flatten) := by
  obtain ⟨fss, hps, hlens, hiffs⟩ := coded_flatten hws
  have hlen : (h ++ ws.flatten).length = (h ++ vs.flatten).length := by
    rw [List.length_append, List.length_append, hlens]
  refine ⟨fss.flatten, Layout.parses_list hh hcount hps, hlen, ?_⟩
  rw [List.append_cancel_left_eq, hiffs]

/-- The flags of a string whose front part is so coded. -/
theorem Coded.eq_iff {l : Layout} {w v t : List τ} (h : Coded p ok l w v) :
    w = v ↔ ∀ fs t', l.flags p (w ++ t) = some (fs, t') → ∀ x ∈ fs, ok x := by
  obtain ⟨fs, hp, _, hiff⟩ := h
  rw [hiff]
  constructor
  · intro hok fs' t' he
    rw [hp t] at he
    cases he
    exact hok
  · intro hok
    exact hok fs t (hp t)

theorem Coded.eq_of_rigid {l : Layout} {w v : List τ} (h : Coded p ok l w v)
    (hl : l.rigid = true) : w = v := by
  refine (h.eq_iff (t := [])).mpr fun fs t' he => ?_
  rw [Layout.flags_of_rigid hl _ _ _ he]
  simp

end Coded

/-! ## Readers -/

section Codes

variable {σ : Type u} {τ : Type v} [Tape σ τ] {ε α β : Type u} {p : Prefix τ} {ok : τ → Prop}

/-- Whatever `r` takes off has the shape `l`, and is the encoding of the result up to flags. -/
def Codes (p : Prefix τ) (ok : τ → Prop) (r : Reader σ ε α) (enc : α → List τ) (l : Layout) :
    Prop :=
  Consumes r fun w a => Coded p ok l w (enc a)

theorem Codes.exact {r : Reader σ ε α} {enc : α → List τ} {l : Layout} (h : Codes p ok r enc l)
    (hl : l.rigid = true) : Consumes r fun w a => w = enc a :=
  h.mono fun _ _ hw => hw.eq_of_rigid hl

theorem Codes.map {r : Reader σ ε α} {enc : α → List τ} {l : Layout} {g : α → β}
    {enc' : β → List τ} (h : Codes p ok r enc l) (henc : ∀ a, enc' (g a) = enc a) :
    Codes p ok (r >>= fun a => pure (g a)) enc' l :=
  Consumes.map h fun w a hw => by rwa [henc]

/-- `r` goes on where `pre` has been read: what it takes off completes the encoding of its
result. -/
def CodesFrom (p : Prefix τ) (ok : τ → Prop) (pre : List τ) (r : Reader σ ε α)
    (enc : α → List τ) (l : Layout) : Prop :=
  Consumes r fun w a => ∃ v, enc a = pre ++ v ∧ Coded p ok l w v

namespace CodesFrom

variable {enc : β → List τ} {l l' : Layout} {pre : List τ}

theorem bind {r : Reader σ ε α} {f : α → Reader σ ε β} {enc' : α → List τ}
    (h : Codes p ok r enc' l) (hf : ∀ a, CodesFrom p ok (pre ++ enc' a) (f a) enc l') :
    CodesFrom p ok pre (r >>= f) enc (.pair l l') := by
  refine Consumes.bind h fun w a hw => (hf a).mono ?_
  rintro w' b ⟨v, he, hw'⟩
  exact ⟨enc' a ++ v, by rw [he, List.append_assoc], hw.pair hw'⟩

theorem last {r : Reader σ ε α} {f : α → Reader σ ε β} {enc' : α → List τ}
    (h : Codes p ok r enc' l) (hf : ∀ a, Consumes (f a) fun w b => w = [] ∧ enc b = pre ++ enc' a) :
    CodesFrom p ok pre (r >>= f) enc l := by
  refine Consumes.bind h fun w a hw => (hf a).mono ?_
  rintro _ b ⟨rfl, he⟩
  exact ⟨enc' a, he, by rwa [List.append_nil]⟩

theorem check {q : Prop} [Decidable q] {e : ε} {r : Reader σ ε β}
    (h : ¬ q → CodesFrom p ok pre r enc l) :
    CodesFrom p ok pre (throwIf q e >>= fun _ => r) enc l :=
  Consumes.check h

end CodesFrom

theorem Codes.of_fields {r : Reader σ ε β} {enc : β → List τ} {l : Layout}
    (h : CodesFrom p ok [] r enc l) : Codes p ok r enc l := by
  refine h.mono ?_
  rintro w b ⟨v, he, hw⟩
  rwa [he]

/-- The parts of several readings in a row. -/
theorem Coded.forall₂ {enc : α → List τ} {l : Layout} {ws : List (List τ)} {as : List α}
    (h : List.Forall₂ (fun w a => Coded p ok l w (enc a)) ws as) :
    List.Forall₂ (Coded p ok l) ws (as.map enc) :=
  List.forall₂_map_right_iff.mpr h

end Codes

end Cursor
