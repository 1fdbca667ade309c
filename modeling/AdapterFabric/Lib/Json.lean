import AdapterFabric.Lib.Cursor
import Mathlib.Data.List.Forall2
import Mathlib.Data.List.TakeWhile

/-!
# Lib.Json

JSON texts (RFC 8259) as byte strings in UTF-8, and what they denote.

Whitespace is skipped in front of every token. A string denotes the UTF-8 of its characters, a
number its own text; an escape of half a surrogate pair denotes nothing.

* `Renders`: a text without whitespace around it that is read back as a value wherever it stands,
  with a rule for each kind of value.
* `Renders.denotes`: such a text denotes that value and no other.
* `Denotes.clean`: no text contains a control character other than tab, line feed and carriage
  return.
-/

namespace Json

open Cursor

inductive Value where
  | null
  | bool (b : Bool)
  | number (text : List UInt8)
  | string (s : List UInt8)
  | array (vs : List Value)
  | object (members : List (List UInt8 × Value))

/-! ## Reading -/

abbrev Read (α : Type) := Cursor.Reader (List UInt8) Unit α

instance : Tape (List UInt8) UInt8 where
  Valid _ := True
  rest s := s
  skip n s := s.drop n
  valid_skip _ _ := trivial
  rest_skip _ _ := rfl
  skip_zero _ := rfl
  skip_skip m n s := by rw [List.drop_drop]
  exists_rest l := ⟨l, trivial, rfl⟩

variable {α β : Type}

def fail : Read α := throw ()

def next : Read UInt8
  | [] => .error ()
  | c :: s => .ok (c, s)

def isSpace (c : UInt8) : Bool := c == 0x20 || c == 0x09 || c == 0x0A || c == 0x0D

/-- The next byte behind any whitespace. -/
def token : Read UInt8 := fun s => next (s.dropWhile isSpace)

def expect : List UInt8 → Read Unit
  | [] => pure ()
  | c :: w => do
    let d ← next
    if d = c then expect w else fail

/-- All bytes up to the first that fails `p`. -/
def takeWhile (p : UInt8 → Bool) : Read (List UInt8) :=
  fun s => .ok (s.takeWhile p, s.dropWhile p)

/-- The next byte, if it satisfies `p`. -/
def optional (p : UInt8 → Bool) : Read (Option UInt8)
  | [] => .ok (none, [])
  | c :: s => if p c then .ok (some c, s) else .ok (none, c :: s)

/-! ### Strings -/

def hexValue (c : UInt8) : Option ℕ :=
  if 0x30 ≤ c ∧ c ≤ 0x39 then some (c.toNat - 0x30)
  else if 0x41 ≤ c ∧ c ≤ 0x46 then some (c.toNat - 0x41 + 10)
  else if 0x61 ≤ c ∧ c ≤ 0x66 then some (c.toNat - 0x61 + 10)
  else none

/-- `n` hexadecimal digits behind `v`. -/
def hex : (n v : ℕ) → Read ℕ
  | 0, v => pure v
  | n + 1, v => do
    let c ← next
    match hexValue c with
    | none => fail
    | some d => hex n (16 * v + d)

/-- The two-character escapes, by the character behind the backslash. -/
def shortEscape (c : UInt8) : Option UInt8 :=
  if c = 0x22 ∨ c = 0x5C ∨ c = 0x2F then some c
  else if c = 0x62 then some 0x08
  else if c = 0x66 then some 0x0C
  else if c = 0x6E then some 0x0A
  else if c = 0x72 then some 0x0D
  else if c = 0x74 then some 0x09
  else none

def utf8 (code : ℕ) : List UInt8 := String.utf8EncodeChar (Char.ofNat code)

/-- The rest of `\u` and four digits, and of the pair they may begin. -/
def unicodeEscape : Read (List UInt8) := do
  let u ← hex 4 0
  if 0xD800 ≤ u ∧ u < 0xDC00 then do
    expect [0x5C, 0x75]
    let v ← hex 4 0
    if 0xDC00 ≤ v ∧ v < 0xE000 then pure (utf8 (0x10000 + (u - 0xD800) * 0x400 + (v - 0xDC00)))
    else fail
  else if 0xDC00 ≤ u ∧ u < 0xE000 then fail
  else pure (utf8 u)

/-- The rest of an escape. -/
def escape : Read (List UInt8) := do
  let c ← next
  if c = 0x75 then unicodeEscape
  else
    match shortEscape c with
    | none => fail
    | some d => pure [d]

/-- A string behind its opening quotation mark. -/
def body : ℕ → Read (List UInt8)
  | 0 => fail
  | n + 1 => do
    let c ← next
    if c = 0x22 then pure []
    else if c = 0x5C then do
      let e ← escape
      let s ← body n
      pure (e ++ s)
    else if c < 0x20 then fail
    else do
      let s ← body n
      pure (c :: s)

/-! ### Numbers -/

def isDigit (c : UInt8) : Bool := 0x30 ≤ c && c ≤ 0x39

def digits : Read (List UInt8) := do
  let ds ← takeWhile isDigit
  if ds = [] then fail else pure ds

/-- `0`, or digits that do not begin with it, from their first. -/
def integer (c : UInt8) : Read (List UInt8) :=
  if c = 0x30 then pure [c]
  else if isDigit c then do
    let ds ← takeWhile isDigit
    pure (c :: ds)
  else fail

def fraction : Read (List UInt8) := do
  match ← optional (· == 0x2E) with
  | none => pure []
  | some c => do
    let ds ← digits
    pure (c :: ds)

def exponent : Read (List UInt8) := do
  match ← optional fun c => c == 0x65 || c == 0x45 with
  | none => pure []
  | some c => do
    let sign ← optional fun c => c == 0x2B || c == 0x2D
    let ds ← digits
    pure (c :: sign.toList ++ ds)

/-- An integer with the minus it may have. -/
def signed (c : UInt8) : Read (List UInt8) :=
  if c = 0x2D then do
    let d ← next
    let i ← integer d
    pure (c :: i)
  else integer c

/-- A number, from its first byte. -/
def number (c : UInt8) : Read Value := do
  let i ← signed c
  let f ← fraction
  let e ← exponent
  pure (.number (i ++ f ++ e))

/-! ### Values -/

section Lists

variable (item : UInt8 → Read α) (close : UInt8)

/-- Items with commas between them up to `close`, from the first byte of the first. -/
def items : ℕ → UInt8 → Read (List α)
  | 0, _ => fail
  | n + 1, c => do
    let a ← item c
    let d ← token
    if d = close then pure [a]
    else if d = 0x2C then do
      let c ← token
      let as ← items n c
      pure (a :: as)
    else fail

def listOf (n : ℕ) : Read (List α) := do
  let c ← token
  if c = close then pure [] else items item close n c

end Lists

/-- A member of an object, from its first byte. -/
def member (value : UInt8 → Read Value) (n : ℕ) (c : UInt8) : Read (List UInt8 × Value) :=
  if c = 0x22 then do
    let k ← body n
    let d ← token
    if d = 0x3A then do
      let c ← token
      let v ← value c
      pure (k, v)
    else fail
  else fail

/-- A value, from its first byte. -/
def value : ℕ → UInt8 → Read Value
  | 0, _ => fail
  | n + 1, c =>
    if c = 0x7B then do
      let ms ← listOf (member (value n) n) 0x7D n
      pure (.object ms)
    else if c = 0x5B then do
      let vs ← listOf (value n) 0x5D n
      pure (.array vs)
    else if c = 0x22 then do
      let s ← body n
      pure (.string s)
    else if c = 0x74 then do
      expect [0x72, 0x75, 0x65]
      pure (.bool true)
    else if c = 0x66 then do
      expect [0x61, 0x6C, 0x73, 0x65]
      pure (.bool false)
    else if c = 0x6E then do
      expect [0x75, 0x6C, 0x6C]
      pure .null
    else number c

/-- A whole text; every recursion has taken a byte off, so its length is fuel enough. -/
def parse (text : List UInt8) : Option Value :=
  match (token >>= value text.length).run text with
  | .error _ => none
  | .ok (v, s) => if s.all isSpace then some v else none

/-- The string is the UTF-8 of characters. -/
def IsUtf8 (s : List UInt8) : Prop := ∃ cs : List Char, s = cs.flatMap String.utf8EncodeChar

structure Denotes (text : List UInt8) (v : Value) : Prop where
  utf8 : IsUtf8 text
  parse : parse text = some v

theorem Denotes.unique {text : List UInt8} {v v' : Value} (h : Denotes text v)
    (h' : Denotes text v') : v = v' :=
  Option.some_inj.mp (h.parse.symm.trans h'.parse)

/-! ## Texts that are read back -/

theorem reads_next (c : UInt8) : Reads next [c] c := by
  intro s t _ hs
  have hs : s = c :: t := hs
  rw [hs]
  rfl

theorem reads_token {c : UInt8} (hc : isSpace c = false) : Reads token [c] c := by
  intro s t _ hs
  have hs : s = c :: t := hs
  rw [hs]
  show next ((c :: t).dropWhile isSpace) = _
  rw [List.dropWhile_cons_of_neg (by rw [hc]; decide)]
  rfl

theorem reads_expect (w : List UInt8) : Reads (expect w) w () := by
  induction w with
  | nil => exact .pure ()
  | cons c w ih =>
    refine (reads_next c).bind (v := w) ?_
    rw [if_pos rfl]
    exact ih

/-- `t` is a string behind its opening quotation mark, up to and with the closing one. -/
def Quotes (t s : List UInt8) : Prop := ∀ n, t.length ≤ n → Reads (body n) t s

namespace Quotes

theorem nil : Quotes [0x22] [] := by
  rintro (_ | n) hn
  · cases hn
  · refine (reads_next 0x22).map ?_
    rw [if_pos rfl]
    exact .pure []

theorem plain {c : UInt8} (hquote : c ≠ 0x22) (hslash : c ≠ 0x5C) (hc : ¬ c < 0x20)
    {t s : List UInt8} (h : Quotes t s) : Quotes (c :: t) (c :: s) := by
  rintro (_ | n) hn
  · cases hn
  · refine (reads_next c).bind (v := t) ?_
    rw [if_neg hquote, if_neg hslash, if_neg hc]
    exact (h n (Nat.le_of_succ_le_succ hn)).map (.pure _)

theorem short {c d : UInt8} (hc : shortEscape c = some d) {t s : List UInt8} (h : Quotes t s) :
    Quotes (0x5C :: c :: t) (d :: s) := by
  have hu : c ≠ 0x75 := by
    rintro rfl
    cases hc
  have hescape : Reads escape [c] [d] := by
    refine (reads_next c).map ?_
    rw [if_neg hu, hc]
    exact .pure [d]
  rintro (_ | n) hn
  · cases hn
  · refine (reads_next 0x5C).bind (v := c :: t) ?_
    refine hescape.bind (v := t) ?_
    exact (h n (by simp only [List.length_cons] at hn; omega)).map (.pure _)

end Quotes

/-! ### Lists -/

/-- `w` begins with neither whitespace nor `close`, and is read from its first byte. -/
def Starts (item : UInt8 → Read α) (close : UInt8) (w : List UInt8) (a : α) : Prop :=
  ∃ c u, w = c :: u ∧ isSpace c = false ∧ c ≠ close ∧ Reads (item c) u a

section Lists

variable {item : UInt8 → Read α} {close : UInt8}

theorem reads_items (hclose : isSpace close = false) (hcomma : close ≠ 0x2C)
    {ws : List (List UInt8)} {as : List α} (h : List.Forall₂ (Starts item close) ws as)
    (hne : ws ≠ []) : ∀ {n : ℕ}, ws.length ≤ n → ∃ c u, [0x2C].intercalate ws = c :: u ∧
      isSpace c = false ∧ c ≠ close ∧ Reads (items item close n c) (u ++ [close]) as := by
  induction h with
  | nil => exact absurd rfl hne
  | @cons w a ws as hw hws ih =>
    obtain ⟨c, u, rfl, hspace, hc, hread⟩ := hw
    rintro (_ | n) hn
    · cases hn
    · cases hws with
      | nil =>
        refine ⟨c, u, by simp, hspace, hc, hread.bind ((reads_token hclose).map ?_)⟩
        rw [if_pos rfl]
        exact .pure [a]
      | @cons w' a' ws as hw' hws' =>
        obtain ⟨c', u', heq, hspace', _, hrest⟩ :=
          ih (List.cons_ne_nil _ _) (n := n) (Nat.le_of_succ_le_succ hn)
        refine ⟨c, u ++ 0x2C :: c' :: u', ?_, hspace, hc, ?_⟩
        · rw [List.intercalate_cons_cons, heq]
          simp
        · rw [List.append_assoc]
          refine hread.bind ((reads_token (by decide)).bind (v := c' :: (u' ++ [close])) ?_)
          rw [if_neg fun h => hcomma h.symm, if_pos rfl]
          exact (reads_token hspace').bind (v := u' ++ [close]) (hrest.map (.pure _))

theorem reads_listOf (hclose : isSpace close = false) (hcomma : close ≠ 0x2C)
    {ws : List (List UInt8)} {as : List α} (h : List.Forall₂ (Starts item close) ws as) {n : ℕ}
    (hn : ws.length ≤ n) : Reads (listOf item close n) ([0x2C].intercalate ws ++ [close]) as := by
  by_cases hne : ws = []
  · subst hne
    cases h
    refine (reads_token hclose).map ?_
    rw [if_pos rfl]
    exact .pure []
  · obtain ⟨c, u, heq, hspace, hc, hread⟩ := reads_items hclose hcomma h hne hn
    rw [heq]
    refine (reads_token hspace).bind (v := u ++ [close]) ?_
    rw [if_neg hc]
    exact hread

theorem length_le_intercalate (ws : List (List UInt8)) :
    ws.length ≤ ([0x2C].intercalate ws).length + 1 ∧
      ∀ w ∈ ws, w.length ≤ ([0x2C].intercalate ws).length := by
  induction ws with
  | nil => simp
  | cons w ws ih =>
    cases ws with
    | nil => simp
    | cons w' ws =>
      obtain ⟨hlen, hmem⟩ := ih
      rw [List.intercalate_cons_cons]
      simp only [List.length_append, List.length_cons, List.length_nil] at hlen ⊢
      refine ⟨by omega, ?_⟩
      intro x hx
      rcases List.mem_cons.mp hx with rfl | hx
      · omega
      · have := hmem x hx
        omega

end Lists

/-! ### Values -/

/-- `w` is a text of `v` without whitespace around it. -/
def Renders (w : List UInt8) (v : Value) : Prop :=
  ∀ n, w.length ≤ n → Starts (value n) 0x5D w v

/-- `w` is a text of the member `m`. -/
def RendersMember (w : List UInt8) (m : List UInt8 × Value) : Prop :=
  ∃ t u, w = 0x22 :: (t ++ 0x3A :: u) ∧ Quotes t m.1 ∧ Renders u m.2

theorem RendersMember.starts {w : List UInt8} {m : List UInt8 × Value} (h : RendersMember w m)
    {n : ℕ} (hn : w.length ≤ n) : Starts (member (value n) n) 0x7D w m := by
  obtain ⟨t, u, rfl, hkey, hvalue⟩ := h
  simp only [List.length_cons, List.length_append] at hn
  obtain ⟨c, u, rfl, hspace, -, hread⟩ := hvalue n (by omega)
  refine ⟨0x22, _, rfl, by decide, by decide, ?_⟩
  unfold member
  rw [if_pos rfl]
  refine (hkey n (by omega)).bind ((reads_token (by decide)).bind (v := c :: u) ?_)
  rw [if_pos rfl]
  exact (reads_token hspace).bind (v := u) (hread.map (.pure _))

namespace Renders

theorem string {t s : List UInt8} (h : Quotes t s) : Renders (0x22 :: t) (.string s) := by
  rintro (_ | n) hn
  · cases hn
  · exact ⟨0x22, t, rfl, by decide, by decide, (h n (Nat.le_of_succ_le_succ hn)).map (.pure _)⟩

theorem true : Renders [0x74, 0x72, 0x75, 0x65] (.bool true) := by
  rintro (_ | n) hn
  · cases hn
  · exact ⟨0x74, _, rfl, by decide, by decide, (reads_expect _).map (.pure _)⟩

theorem false : Renders [0x66, 0x61, 0x6C, 0x73, 0x65] (.bool false) := by
  rintro (_ | n) hn
  · cases hn
  · exact ⟨0x66, _, rfl, by decide, by decide, (reads_expect _).map (.pure _)⟩

theorem array {ws : List (List UInt8)} {vs : List Value} (h : List.Forall₂ Renders ws vs) :
    Renders (0x5B :: ([0x2C].intercalate ws ++ [0x5D])) (.array vs) := by
  obtain ⟨hlen, hmem⟩ := length_le_intercalate ws
  rintro (_ | n) hn
  · cases hn
  · simp only [List.length_cons, List.length_append, List.length_nil] at hn
    refine ⟨0x5B, _, rfl, by decide, by decide, ?_⟩
    have hstarts : List.Forall₂ (Starts (value n) 0x5D) ws vs :=
      ((List.forall₂_and_left _ _).mpr ⟨hmem, h⟩).imp fun w v hw => hw.2 n (by omega)
    exact (reads_listOf (by decide) (by decide) hstarts (by omega)).map (.pure _)

theorem object {ws : List (List UInt8)} {ms : List (List UInt8 × Value)}
    (h : List.Forall₂ RendersMember ws ms) :
    Renders (0x7B :: ([0x2C].intercalate ws ++ [0x7D])) (.object ms) := by
  obtain ⟨hlen, hmem⟩ := length_le_intercalate ws
  rintro (_ | n) hn
  · cases hn
  · simp only [List.length_cons, List.length_append, List.length_nil] at hn
    refine ⟨0x7B, _, rfl, by decide, by decide, ?_⟩
    have hstarts : List.Forall₂ (Starts (member (value n) n) 0x7D) ws ms :=
      ((List.forall₂_and_left _ _).mpr ⟨hmem, h⟩).imp fun w m hw => hw.2.starts (by omega)
    exact (reads_listOf (by decide) (by decide) hstarts (by omega)).map (.pure _)

/-- A text in UTF-8 that is read back is the only way to read it. -/
theorem denotes {w : List UInt8} {v : Value} (hutf8 : IsUtf8 w) (h : Renders w v) :
    Denotes w v := by
  obtain ⟨c, u, rfl, hspace, -, hread⟩ := h _ (Nat.le_refl _)
  have hrun := (reads_token hspace).bind hread (c :: u) [] trivial (by simp [Tape.rest])
  refine ⟨hutf8, ?_⟩
  unfold parse
  rw [hrun]
  simp [Tape.skip]

end Renders

/-! ## Texts that are not read -/

/-- The bytes that may stand in a text: no control characters but tab, line feed and carriage
return. -/
def Legal (c : UInt8) : Prop := 0x20 ≤ c ∨ c = 0x09 ∨ c = 0x0A ∨ c = 0x0D

instance : DecidablePred Legal := fun c =>
  inferInstanceAs (Decidable (0x20 ≤ c ∨ c = 0x09 ∨ c = 0x0A ∨ c = 0x0D))

/-- Every byte of the text is legal. -/
def Clean (w : List UInt8) : Prop := ∀ b ∈ w, Legal b

instance (w : List UInt8) : Decidable (Clean w) := List.decidableBAll Legal w

theorem clean_append {w v : List UInt8} : Clean (w ++ v) ↔ Clean w ∧ Clean v :=
  List.forall_mem_append

theorem legal_of_isSpace {c : UInt8} (h : isSpace c = true) : Legal c := by
  simp only [isSpace, Bool.or_eq_true, beq_iff_eq] at h
  rcases h with ((rfl | rfl) | rfl) | rfl <;> decide

theorem legal_of_le {b c : UInt8} (hb : 0x20 ≤ b) (h : b ≤ c) : Legal c :=
  .inl (UInt8.le_trans hb h)

/-- What `p` takes off is legal. -/
def Legible (p : Read α) : Prop := Consumes p fun w _ => Clean w

/-- Behind `c`: where `p` does not fail, `c` is legal, and so is what `p` takes off. -/
def LegibleAfter (c : UInt8) (p : Read α) : Prop :=
  Consumes p fun w _ => Legal c ∧ Clean w

theorem consumes_next : Consumes next fun w c => w = [c] := by
  rintro (_ | ⟨c, s⟩) a s' _ hrun
  · cases hrun
  · cases hrun
    exact ⟨[c], s, rfl, rfl, rfl⟩

theorem drop_takeWhile (p : UInt8 → Bool) (s : List UInt8) :
    s.drop (s.takeWhile p).length = s.dropWhile p := by
  have h : (s.takeWhile p ++ s.dropWhile p).drop (s.takeWhile p).length = s.dropWhile p :=
    List.drop_left
  rwa [List.takeWhile_append_dropWhile] at h

theorem consumes_token : Consumes token fun w c => ∃ u, w = u ++ [c] ∧ Clean u := by
  intro s a s' _ hrun
  obtain ⟨w, t, hrest, rfl, rfl⟩ := consumes_next (s.dropWhile isSpace) a s' trivial hrun
  have hrest : s.dropWhile isSpace = [a] ++ t := hrest
  refine ⟨s.takeWhile isSpace ++ [a], t, ?_, ?_, _, rfl,
    fun b hb => legal_of_isSpace (List.mem_takeWhile_imp hb)⟩
  · rw [List.append_assoc, ← hrest, List.takeWhile_append_dropWhile]
    rfl
  · show (s.dropWhile isSpace).drop 1 = s.drop _
    rw [List.length_append, ← List.drop_drop, drop_takeWhile]
    rfl

namespace Legible

theorem pure (a : α) : Legible (Pure.pure a : Read α) := Consumes.pure nofun

theorem fail : Legible (Json.fail : Read α) := Consumes.throw _ _

theorem bind {p : Read α} {f : α → Read β} (hp : Legible p) (hf : ∀ a, Legible (f a)) :
    Legible (p >>= f) := by
  refine Consumes.bind hp fun w a hw => (hf a).mono fun v b hv => ?_
  exact clean_append.mpr ⟨hw, hv⟩

theorem next_bind {f : UInt8 → Read α} (h : ∀ c, LegibleAfter c (f c)) :
    Legible (next >>= f) := by
  refine consumes_next.bind ?_
  rintro w c rfl
  refine (h c).mono fun v a hv => ?_
  exact List.forall_mem_cons.mpr hv

theorem token_bind {f : UInt8 → Read α} (h : ∀ c, LegibleAfter c (f c)) :
    Legible (token >>= f) := by
  refine consumes_token.bind ?_
  rintro w c ⟨u, rfl, hu⟩
  refine (h c).mono fun v a hv => ?_
  rw [List.append_assoc]
  exact clean_append.mpr ⟨hu, List.forall_mem_cons.mpr hv⟩

theorem takeWhile {p : UInt8 → Bool} (h : ∀ c, p c = true → Legal c) :
    Legible (Json.takeWhile p) := by
  intro s a s' _ hrun
  cases hrun
  exact ⟨s.takeWhile p, s.dropWhile p, List.takeWhile_append_dropWhile.symm,
    (drop_takeWhile p s).symm, fun b hb => h b (List.mem_takeWhile_imp hb)⟩

theorem optional {p : UInt8 → Bool} (h : ∀ c, p c = true → Legal c) :
    Legible (Json.optional p) := by
  rintro (_ | ⟨c, s⟩) a s' _ hrun
  · cases hrun
    exact ⟨[], [], rfl, rfl, nofun⟩
  · have hrun : (if p c then .ok (some c, s) else .ok (none, c :: s) : Except Unit _) = _ := hrun
    split at hrun
    · rename_i hc
      cases hrun
      exact ⟨[c], s, rfl, rfl, List.forall_mem_singleton.mpr (h c hc)⟩
    · cases hrun
      exact ⟨[], c :: s, rfl, rfl, nofun⟩

theorem ite {q : Prop} [Decidable q] {p p' : Read α} (h : Legible p) (h' : Legible p') :
    Legible (if q then p else p') := by
  split
  · exact h
  · exact h'

end Legible

namespace LegibleAfter

variable {c : UInt8}

theorem of {p : Read α} (hc : Legal c) (hp : Legible p) : LegibleAfter c p :=
  hp.mono fun _ _ hw => ⟨hc, hw⟩

theorem fail : LegibleAfter c (Json.fail : Read α) := Consumes.throw _ _

theorem ite {q : Prop} [Decidable q] {p p' : Read α} (h : q → LegibleAfter c p)
    (h' : ¬ q → LegibleAfter c p') : LegibleAfter c (if q then p else p') := by
  split
  · exact h ‹_›
  · exact h' ‹_›

theorem bind {p : Read α} {f : α → Read β} (hp : LegibleAfter c p) (hf : ∀ a, Legible (f a)) :
    LegibleAfter c (p >>= f) := by
  refine Consumes.bind hp fun w a hw => (hf a).mono fun v b hv => ⟨hw.1, ?_⟩
  exact clean_append.mpr ⟨hw.2, hv⟩

theorem eq_ite {d : UInt8} (hd : Legal d) {p p' : Read α} (h : Legible p)
    (h' : LegibleAfter c p') : LegibleAfter c (if c = d then p else p') :=
  ite (fun hc => of (hc ▸ hd) h) fun _ => h'

end LegibleAfter

/-! ### The readers -/

theorem legible_expect {w : List UInt8} (hw : Clean w) : Legible (expect w) := by
  induction w with
  | nil => exact .pure ()
  | cons c w ih =>
    obtain ⟨hc, hw⟩ := List.forall_mem_cons.mp hw
    exact .next_bind fun d => .eq_ite hc (ih hw) .fail

theorem legible_hex {n : ℕ} : ∀ {v : ℕ}, Legible (hex n v) := by
  induction n with
  | zero => exact .pure _
  | succ n ih =>
    intro v
    refine .next_bind fun c => ?_
    unfold hexValue
    by_cases h9 : 0x30 ≤ c ∧ c ≤ 0x39
    · rw [if_pos h9]
      exact .of (legal_of_le (by decide) h9.1) ih
    · rw [if_neg h9]
      by_cases hF : 0x41 ≤ c ∧ c ≤ 0x46
      · rw [if_pos hF]
        exact .of (legal_of_le (by decide) hF.1) ih
      · rw [if_neg hF]
        by_cases hf : 0x61 ≤ c ∧ c ≤ 0x66
        · rw [if_pos hf]
          exact .of (legal_of_le (by decide) hf.1) ih
        · rw [if_neg hf]
          exact .fail

theorem legible_unicodeEscape : Legible unicodeEscape := by
  refine legible_hex.bind fun u => .ite ?_ (.ite .fail (.pure _))
  refine (legible_expect (by decide)).bind fun _ => legible_hex.bind fun v => ?_
  exact .ite (.pure _) .fail

theorem legible_escape : Legible escape := by
  refine .next_bind fun c => .eq_ite (by decide) legible_unicodeEscape ?_
  cases h : shortEscape c with
  | none => exact .fail
  | some d =>
    have hc : Legal c := by
      by_contra hc
      have hne : ∀ e, Legal e → c ≠ e := fun e he heq => hc (heq ▸ he)
      rw [shortEscape, if_neg, if_neg (hne _ (by decide)), if_neg (hne _ (by decide)),
        if_neg (hne _ (by decide)), if_neg (hne _ (by decide)), if_neg (hne _ (by decide))] at h
      · cases h
      · rintro (h | h | h) <;> exact hne _ (by decide) h
    exact .of hc (.pure _)

theorem legible_body {n : ℕ} : Legible (body n) := by
  induction n with
  | zero => exact .fail
  | succ n ih =>
    refine .next_bind fun c => .eq_ite (by decide) (.pure _) ?_
    refine .eq_ite (by decide) (legible_escape.bind fun e => ih.bind fun s => .pure _) ?_
    refine .ite (fun _ => .fail) fun hc => ?_
    exact .of (.inl (UInt8.not_lt.mp hc)) (ih.bind fun s => .pure _)

theorem legal_of_isDigit {c : UInt8} (h : isDigit c = true) : Legal c := by
  rw [isDigit, Bool.and_eq_true, decide_eq_true_iff] at h
  exact legal_of_le (by decide) h.1

theorem legible_digits : Legible digits :=
  (Legible.takeWhile fun _ => legal_of_isDigit).bind fun _ => .ite .fail (.pure _)

theorem legible_integer (c : UInt8) : LegibleAfter c (integer c) := by
  refine .eq_ite (by decide) (.pure _) (.ite (fun hc => ?_) fun _ => .fail)
  exact .of (legal_of_isDigit hc)
    ((Legible.takeWhile fun _ => legal_of_isDigit).bind fun _ => .pure _)

theorem legible_fraction : Legible fraction := by
  refine (Legible.optional fun c hc => ?_).bind fun d => ?_
  · rw [beq_iff_eq] at hc
    exact hc ▸ by decide
  · cases d with
    | none => exact .pure _
    | some c => exact legible_digits.bind fun ds => .pure _

theorem legible_exponent : Legible exponent := by
  refine (Legible.optional fun c hc => ?_).bind fun d => ?_
  · rw [Bool.or_eq_true, beq_iff_eq, beq_iff_eq] at hc
    rcases hc with rfl | rfl <;> decide
  · cases d with
    | none => exact .pure _
    | some c =>
      refine (Legible.optional fun c hc => ?_).bind fun sign =>
        legible_digits.bind fun ds => .pure _
      rw [Bool.or_eq_true, beq_iff_eq, beq_iff_eq] at hc
      rcases hc with rfl | rfl <;> decide

theorem legible_signed (c : UInt8) : LegibleAfter c (signed c) := by
  refine .eq_ite (by decide) (.next_bind fun d => ?_) (legible_integer c)
  exact (legible_integer d).bind fun i => .pure _

theorem legible_number (c : UInt8) : LegibleAfter c (number c) :=
  (legible_signed c).bind fun _ =>
    legible_fraction.bind fun _ => legible_exponent.bind fun _ => .pure _

theorem legible_items {item : UInt8 → Read α} {close : UInt8} (hclose : Legal close)
    (hitem : ∀ c, LegibleAfter c (item c)) {n : ℕ} :
    ∀ c, LegibleAfter c (items item close n c) := by
  induction n with
  | zero => exact fun _ => .fail
  | succ n ih =>
    intro c
    refine (hitem c).bind fun a => .token_bind fun d => .eq_ite hclose (.pure _) ?_
    refine .eq_ite (by decide) (.token_bind fun c => ?_) .fail
    exact (ih c).bind fun as => .pure _

theorem legible_listOf {item : UInt8 → Read α} {close : UInt8} (hclose : Legal close)
    (hitem : ∀ c, LegibleAfter c (item c)) {n : ℕ} : Legible (listOf item close n) :=
  .token_bind fun c => .eq_ite hclose (.pure _) (legible_items hclose hitem c)

theorem legible_member {value : UInt8 → Read Value} (hvalue : ∀ c, LegibleAfter c (value c))
    {n : ℕ} (c : UInt8) : LegibleAfter c (member value n c) := by
  refine .eq_ite (by decide) (legible_body.bind fun k => .token_bind fun d => ?_) .fail
  refine .eq_ite (by decide) (.token_bind fun c => ?_) .fail
  exact (hvalue c).bind fun v => .pure _

theorem legible_value {n : ℕ} : ∀ c, LegibleAfter c (value n c) := by
  induction n with
  | zero => exact fun _ => .fail
  | succ n ih =>
    intro c
    refine .eq_ite (by decide) ((legible_listOf (by decide) (legible_member ih)).bind
      fun ms => .pure _) ?_
    refine .eq_ite (by decide) ((legible_listOf (by decide) ih).bind fun vs => .pure _) ?_
    refine .eq_ite (by decide) (legible_body.bind fun s => .pure _) ?_
    refine .eq_ite (by decide) ((legible_expect (by decide)).bind fun _ => .pure _) ?_
    refine .eq_ite (by decide) ((legible_expect (by decide)).bind fun _ => .pure _) ?_
    exact .eq_ite (by decide) ((legible_expect (by decide)).bind fun _ => .pure _)
      (legible_number c)

theorem Denotes.clean {text : List UInt8} {v : Value} (h : Denotes text v) : Clean text := by
  have hparse := h.parse
  unfold Json.parse at hparse
  split at hparse
  · cases hparse
  · rename_i v' s hrun
    have hread : Legible (token >>= value text.length) := .token_bind legible_value
    obtain ⟨w, t, hrest, rfl, hw⟩ := hread _ _ _ trivial hrun
    split at hparse
    · rename_i hspace
      have hrest : text = w ++ t := hrest
      have hdrop : Tape.skip w.length (w ++ t) = t := List.drop_left
      rw [hrest] at hspace ⊢
      rw [hdrop] at hspace
      exact clean_append.mpr ⟨hw, fun b hb => legal_of_isSpace (List.all_eq_true.mp hspace b hb)⟩
    · cases hparse

/-! ## UTF-8 -/

def IsAscii (s : List UInt8) : Prop := ∀ c ∈ s, c < 0x80

instance (s : List UInt8) : Decidable (IsAscii s) := List.decidableBAll (· < 0x80) s

namespace IsUtf8

theorem nil : IsUtf8 [] := ⟨[], rfl⟩

theorem append {s t : List UInt8} (hs : IsUtf8 s) (ht : IsUtf8 t) : IsUtf8 (s ++ t) := by
  obtain ⟨cs, rfl⟩ := hs
  obtain ⟨ds, rfl⟩ := ht
  exact ⟨cs ++ ds, by rw [List.flatMap_append]⟩

theorem encode_ascii {c : UInt8} (hc : c < 0x80) :
    String.utf8EncodeChar (Char.ofNat c.toNat) = [c] := by
  have hlt : c.toNat < 128 := UInt8.lt_iff_toNat_lt.mp hc
  have hval : (Char.ofNat c.toNat).val.toNat = c.toNat := by
    rw [Char.ofNat, dif_pos (Or.inl (by omega))]
    rfl
  unfold String.utf8EncodeChar
  rw [hval]
  simp only [if_pos (by omega : c.toNat ≤ 127), UInt8.ofNat_toNat]

theorem ascii {s : List UInt8} (h : IsAscii s) : IsUtf8 s := by
  refine ⟨s.map fun c => Char.ofNat c.toNat, ?_⟩
  rw [List.flatMap_map]
  induction s with
  | nil => rfl
  | cons c s ih =>
    obtain ⟨hc, hs⟩ := List.forall_mem_cons.mp h
    rw [List.flatMap_cons, encode_ascii hc, ← ih hs]
    rfl

/-- A character is one ASCII byte, or none of its bytes is one. -/
theorem encode_cases (c : Char) : (∃ b, String.utf8EncodeChar c = [b] ∧ b < 0x80) ∨
    ∀ b ∈ String.utf8EncodeChar c, ¬ b < 0x80 := by
  have high : ∀ n : ℕ, 128 ≤ n → n < 256 → ¬ UInt8.ofNat n < 0x80 := by
    intro n hle hlt h
    rw [UInt8.lt_iff_toNat_lt, UInt8.toNat_ofNat_of_lt' hlt] at h
    exact absurd h (Nat.not_lt.mpr hle)
  unfold String.utf8EncodeChar
  dsimp only
  split
  · refine .inl ⟨_, rfl, ?_⟩
    rw [UInt8.lt_iff_toNat_lt, UInt8.toNat_ofNat_of_lt' (by show _ < 256; omega)]
    show c.val.toNat < 128
    omega
  · right
    split
    · simp only [List.forall_mem_cons]
      exact ⟨high _ (by omega) (by omega), high _ (by omega) (by omega), by simp⟩
    · split
      · simp only [List.forall_mem_cons]
        exact ⟨high _ (by omega) (by omega), high _ (by omega) (by omega),
          high _ (by omega) (by omega), by simp⟩
      · simp only [List.forall_mem_cons]
        exact ⟨high _ (by omega) (by omega), high _ (by omega) (by omega),
          high _ (by omega) (by omega), high _ (by omega) (by omega), by simp⟩

/-- Replacing ASCII bytes by ASCII texts, and nothing else. -/
theorem flatMap {f : UInt8 → List UInt8} (hascii : ∀ c, c < 0x80 → IsAscii (f c))
    (hkeep : ∀ c, ¬ c < 0x80 → f c = [c]) {s : List UInt8} (h : IsUtf8 s) :
    IsUtf8 (s.flatMap f) := by
  obtain ⟨cs, rfl⟩ := h
  induction cs with
  | nil => exact nil
  | cons c cs ih =>
    rw [List.flatMap_cons, List.flatMap_append]
    refine append ?_ ih
    rcases encode_cases c with ⟨b, hc, hb⟩ | hc
    · rw [hc, List.flatMap_singleton]
      exact ascii (hascii b hb)
    · have hsame : (String.utf8EncodeChar c).flatMap f = String.utf8EncodeChar c := by
        rw [List.flatMap_congr fun b hb => hkeep b (hc b hb)]
        exact List.flatMap_singleton' _
      rw [hsame]
      exact ⟨[c], by rw [List.flatMap_singleton]⟩

end IsUtf8

end Json
