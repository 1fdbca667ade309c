import AdapterFabric.Identity

/-!
# AdapterFabric.Identity.Text

The texts `Uuid::parse` accepts, and what it reads of them (`uuid.cpp`).

* `scan_eq_parse`: the loop over indices never reads or writes out of range.
* `parse_eq_ok_iff`: a text is accepted as `u` exactly when its lower case is `u.str()`.
* `parse_ok_iff`: the accepted texts, character by character.
-/

namespace AdapterFabric
namespace Uuid

/-- The loop of `Uuid::parse` with its index expressions: `i` is the position in `s` and `di` the
next octet of `out`. `none` is an access outside `s` or `out`. -/
def scanFrom (s : Bytes) (i di : Nat) (out : Bytes) : Option (Except Bytes Uuid) :=
  if i < s.length then
    if DashAt i then do
      let c ← s[i]?
      if c ≠ 45 then some (.error (ascii "expected a dash at position " ++ decimal i))
      else scanFrom s (i + 1) di out
    else do
      let c ← s[i]?
      let d ← s[i + 1]?
      match nibble c, nibble d with
      | some hi, some lo =>
        if di < out.length then scanFrom s (i + 2) (di + 1) (out.set di ((hi <<< 4) ||| lo))
        else none
      | _, _ => some (.error (ascii "invalid hex digit"))
  else some (.ok (ofBytes out))
termination_by s.length - i

def scan (s : Bytes) : Option (Except Bytes Uuid) :=
  if s.length ≠ 36 then some (.error (ascii "expected a 36-character UUID"))
  else scanFrom s 0 0 (List.replicate 16 0)

/-- Where the loop can be: before position `i` stand `di` octets and the dashes. -/
structure Aligned (i di : Nat) : Prop where
  seg : (i = 2 * di ∧ i ≤ 8) ∨ (i = 2 * di + 1 ∧ 9 ≤ i ∧ i ≤ 13) ∨
    (i = 2 * di + 2 ∧ 14 ≤ i ∧ i ≤ 18) ∨ (i = 2 * di + 3 ∧ 19 ≤ i ∧ i ≤ 23) ∨
    (i = 2 * di + 4 ∧ 24 ≤ i ∧ i ≤ 36)

theorem aligned_zero : Aligned 0 0 := ⟨by omega⟩

theorem Aligned.dash {i di : Nat} (h : Aligned i di) (hi : DashAt i) : Aligned (i + 1) di := by
  have := h.seg
  exact ⟨by omega⟩

/-- Away from the dashes two digits are left, and room for their octet. -/
theorem Aligned.octet {i di : Nat} (h : Aligned i di) (hi : ¬ DashAt i) (hlt : i < 36) :
    Aligned (i + 2) (di + 1) ∧ i + 1 < 36 ∧ di < 16 := by
  have := h.seg
  exact ⟨⟨by omega⟩, by omega, by omega⟩

/-- The octet of two hexadecimal digits. -/
def octet (c d : UInt8) : Option UInt8 := do
  let hi ← nibble c
  let lo ← nibble d
  some ((hi <<< 4) ||| lo)

theorem parseFrom_pair {i : Nat} (hi : ¬ DashAt i) (c d : UInt8) (s out : Bytes) :
    parseFrom i (c :: d :: s) out =
      (octet c d).elim (.error (ascii "invalid hex digit"))
        fun b => parseFrom (i + 2) s (out ++ [b]) := by
  rw [parseFrom.eq_def, octet]
  simp only [if_neg hi]
  cases nibble c <;> cases nibble d <;> rfl

section Scan

variable {s out : Bytes} {i di : Nat}

theorem scanFrom_end (h : ¬ i < s.length) : scanFrom s i di out = some (.ok (ofBytes out)) := by
  rw [scanFrom, if_neg h]

theorem scanFrom_sep (hi : DashAt i) (h : i < s.length) : scanFrom s i di out =
    if s[i] ≠ 45 then some (.error (ascii "expected a dash at position " ++ decimal i))
    else scanFrom s (i + 1) di out := by
  rw [scanFrom, if_pos h, if_pos hi, List.getElem?_eq_getElem h]
  rfl

theorem scanFrom_pair (hi : ¬ DashAt i) (h : i + 1 < s.length) (hdi : di < out.length) :
    scanFrom s i di out = (octet s[i] s[i + 1]).elim (some (.error (ascii "invalid hex digit")))
      fun b => scanFrom s (i + 2) (di + 1) (out.set di b) := by
  rw [scanFrom, if_pos (by omega), if_neg hi, List.getElem?_eq_getElem h,
    List.getElem?_eq_getElem (by omega), octet]
  cases hc : nibble s[i] <;> cases hd : nibble s[i + 1] <;>
    simp [hc, hd, if_pos hdi]

end Scan

theorem ofBytes_zeros (out : Bytes) (n : Nat) :
    ofBytes (out ++ List.replicate n 0) = ofBytes out := by
  refine ext (List.ext_getElem? fun j => ?_)
  simp only [ofBytes, List.append_assoc, List.getElem?_take, List.getElem?_append,
    List.getElem?_replicate, List.length_replicate]
  grind

/-- Every access is in range, and the loop finds what the reading of the text from its front
finds. -/
theorem scanFrom_eq {s : Bytes} (hs : s.length = 36) {i di : Nat} {out : Bytes}
    (hpos : Aligned i di) (hout : out.length = di) :
    scanFrom s i di (out ++ List.replicate (16 - di) 0) = some (parseFrom i (s.drop i) out) := by
  by_cases hend : i < s.length
  · have hdrop : s.drop i = s[i] :: s.drop (i + 1) := List.drop_eq_getElem_cons hend
    by_cases hdash : DashAt i
    · rw [scanFrom_sep hdash hend, hdrop, parseFrom_sep hdash,
        scanFrom_eq hs (hpos.dash hdash) hout]
      split <;> rfl
    · obtain ⟨hpos', hnext, hroom⟩ := hpos.octet hdash (by omega)
      rw [scanFrom_pair hdash (by omega) (by simp; omega), hdrop,
        List.drop_eq_getElem_cons (by omega : i + 1 < s.length), parseFrom_pair hdash]
      cases octet s[i] s[i + 1] with
      | none => rfl
      | some b =>
        have hset : (out ++ List.replicate (16 - di) 0).set di b =
            (out ++ [b]) ++ List.replicate (16 - (di + 1)) 0 := by
          have hrep : List.replicate (16 - di) (0 : UInt8) =
              0 :: List.replicate (16 - (di + 1)) 0 := by
            rw [← List.replicate_succ]
            congr 1
            omega
          rw [List.set_append_right _ _ (by omega), hout, Nat.sub_self, hrep, List.set_cons_zero,
            List.append_assoc, List.singleton_append]
        show scanFrom s (i + 2) (di + 1) _ = some (parseFrom (i + 2) _ _)
        rw [hset, scanFrom_eq hs hpos' (by simp [hout])]
  · rw [scanFrom_end hend, List.drop_eq_nil_of_le (by omega), ofBytes_zeros]
    rfl
termination_by 36 - i

/-- `parse` never reads outside its argument or writes outside its sixteen octets. -/
theorem scan_eq_parse (s : Bytes) : scan s = some (parse s) := by
  unfold scan parse
  by_cases hs : s.length = 36
  · rw [if_neg (not_not.mpr hs), if_neg (not_not.mpr hs)]
    exact scanFrom_eq hs aligned_zero (List.length_nil (α := UInt8))
  · rw [if_pos hs, if_pos hs]

/-! ## What an accepted text says -/

/-- `std::tolower` in the "C" locale. -/
def lower (c : UInt8) : UInt8 := if 65 ≤ c ∧ c ≤ 90 then c + 32 else c

def IsHexDigit (c : UInt8) : Prop := (48 ≤ c ∧ c ≤ 57) ∨ (97 ≤ c ∧ c ≤ 102) ∨ (65 ≤ c ∧ c ≤ 70)

theorem isHexDigit_iff (c : UInt8) : IsHexDigit c ↔ (nibble c).isSome = true := by
  unfold IsHexDigit nibble
  grind

theorem nibble_lower (c : UInt8) : nibble (lower c) = nibble c := by
  have key : ∀ n < 256, nibble (lower (UInt8.ofNat n)) = nibble (UInt8.ofNat n) := by
    decide +kernel
  simpa using key c.toNat c.toNat_lt

/-- The digits with value `n` are those whose lower case is `hex[n]`. -/
theorem nibble_eq_some_iff {c n : UInt8} : nibble c = some n ↔ n < 16 ∧ lower c = hexDigit n := by
  constructor
  · have key : ∀ k < 256, ∀ n ∈ nibble (UInt8.ofNat k),
        n < 16 ∧ lower (UInt8.ofNat k) = hexDigit n := by
      decide +kernel
    intro h
    have h' : nibble (UInt8.ofNat c.toNat) = some n := by rwa [UInt8.ofNat_toNat]
    simpa using key c.toNat c.toNat_lt n h'
  · rintro ⟨hn, hc⟩
    rw [← nibble_lower, hc, nibble_hexDigit hn]

theorem nibbles_split {hi lo : UInt8} (hhi : hi < 16) (hlo : lo < 16) :
    (hi <<< 4 ||| lo) >>> 4 = hi ∧ (hi <<< 4 ||| lo) &&& 0x0F = lo := by
  have key : ∀ m < 16, ∀ n < 16,
      (UInt8.ofNat m <<< 4 ||| UInt8.ofNat n) >>> 4 = UInt8.ofNat m ∧
        (UInt8.ofNat m <<< 4 ||| UInt8.ofNat n) &&& 0x0F = UInt8.ofNat n := by
    decide +kernel
  have h := key hi.toNat (UInt8.lt_iff_toNat_lt.mp hhi) lo.toNat (UInt8.lt_iff_toNat_lt.mp hlo)
  rwa [UInt8.ofNat_toNat, UInt8.ofNat_toNat] at h

theorem octet_eq_some_iff {c d b : UInt8} :
    octet c d = some b ↔ lower c = hexDigit (b >>> 4) ∧ lower d = hexDigit (b &&& 0x0F) := by
  constructor
  · intro h
    obtain ⟨hi, hc, h⟩ := Option.bind_eq_some_iff.mp h
    obtain ⟨lo, hd, h⟩ := Option.bind_eq_some_iff.mp h
    obtain ⟨hhi, hc⟩ := nibble_eq_some_iff.mp hc
    obtain ⟨hlo, hd⟩ := nibble_eq_some_iff.mp hd
    obtain rfl := Option.some.inj h
    rw [(nibbles_split hhi hlo).1, (nibbles_split hhi hlo).2]
    exact ⟨hc, hd⟩
  · rintro ⟨hc, hd⟩
    rw [octet, nibble_eq_some_iff.mpr ⟨(nibble_lt b).1, hc⟩,
      nibble_eq_some_iff.mpr ⟨(nibble_lt b).2, hd⟩]
    exact congrArg some (nibbles_join b)

theorem lower_eq_dash {c : UInt8} : lower c = 45 ↔ c = 45 := by
  unfold lower
  grind

theorem textPos_le {k : Nat} (h : k ≤ 16) : textPos k ≤ 36 := by
  unfold textPos
  split_ifs <;> omega

/-- `strFrom` without the dash that may come first. -/
def bodyFrom : Nat → Bytes → Bytes
  | _, [] => []
  | k, b :: bs => hexDigit (b >>> 4) :: hexDigit (b &&& 0x0F) :: strFrom (k + 1) bs

theorem strFrom_dash {k : Nat} (h : dashBefore k = true) {bs : Bytes} (hbs : bs ≠ []) :
    strFrom k bs = 45 :: bodyFrom k bs := by
  cases bs with
  | nil => exact absurd rfl hbs
  | cons b bs =>
    rw [strFrom, if_pos h]
    rfl

theorem strFrom_digit {k : Nat} (h : ¬ dashBefore k = true) (bs : Bytes) :
    strFrom k bs = bodyFrom k bs := by
  cases bs with
  | nil => rfl
  | cons b bs =>
    rw [strFrom, if_neg h]
    rfl

/-- The text is past the dash that may stand before octet `k`; the octets after it are read as
`hrest` says. -/
theorem parseFrom_body_iff {i k n : Nat} (hi : ¬ DashAt i) (hnext : textPos (k + 1) = i + 2)
    {s out : Bytes} {u : Uuid} (hs : s.length + i = 36) (hlt : i + 2 ≤ 36)
    (hrest : ∀ {s out : Bytes}, s.length + textPos (k + 1) = 36 →
      (parseFrom (textPos (k + 1)) s out = .ok u ↔ ∃ bs, bs.length = n ∧
        s.map lower = strFrom (k + 1) bs ∧ ofBytes (out ++ bs) = u)) :
    parseFrom i s out = .ok u ↔ ∃ bs, bs.length = n + 1 ∧ s.map lower = bodyFrom k bs ∧
      ofBytes (out ++ bs) = u := by
  obtain ⟨c, s, rfl⟩ := List.exists_cons_of_length_pos (by omega : 0 < s.length)
  rw [List.length_cons] at hs
  obtain ⟨d, s, rfl⟩ := List.exists_cons_of_length_pos (by omega : 0 < s.length)
  rw [List.length_cons] at hs
  rw [parseFrom_pair hi, ← hnext]
  constructor
  · intro h
    cases ho : octet c d with
    | none =>
      rw [ho] at h
      cases h
    | some b =>
      rw [ho] at h
      obtain ⟨bs, hlen, htext, hu⟩ := (hrest (by omega)).mp h
      obtain ⟨hc, hd⟩ := octet_eq_some_iff.mp ho
      refine ⟨b :: bs, congrArg (· + 1) hlen, ?_, ?_⟩
      · rw [List.map_cons, List.map_cons, hc, hd, htext, bodyFrom]
      · rwa [List.append_assoc, List.singleton_append] at hu
  · rintro ⟨bs, hlen, htext, hu⟩
    obtain ⟨b, bs, rfl⟩ := List.exists_of_length_succ bs hlen
    simp only [bodyFrom, List.map_cons, List.cons.injEq] at htext
    obtain ⟨hc, hd, htext⟩ := htext
    rw [octet_eq_some_iff.mpr ⟨hc, hd⟩]
    refine (hrest (by omega)).mpr ⟨bs, Nat.succ.inj hlen, htext, ?_⟩
    rwa [List.append_assoc, List.singleton_append]

/-- What is left of the text is accepted exactly when it is the rest of some canonical text, up to
the case of the letters. -/
theorem parseFrom_eq_ok_iff {n : Nat} {u : Uuid} : ∀ {k : Nat} {s out : Bytes}, k + n = 16 →
    s.length + textPos k = 36 → (parseFrom (textPos k) s out = .ok u ↔
      ∃ bs, bs.length = n ∧ s.map lower = strFrom k bs ∧ ofBytes (out ++ bs) = u) := by
  induction n with
  | zero =>
    intro k s out hk hs
    obtain rfl : k = 16 := hk
    have hend : textPos 16 = 36 := by decide
    obtain rfl : s = [] := List.eq_nil_of_length_eq_zero (by omega)
    simp [parseFrom, strFrom]
  | succ n ih =>
    intro k s out hk hs
    have hrest := fun {s out : Bytes} => @ih (k + 1) s out (by omega)
    have hle : textPos (k + 1) ≤ 36 := textPos_le (by omega)
    by_cases hdash : dashBefore k = true
    · obtain ⟨hat, hbody, hnext⟩ := textPos_dash hdash
      obtain ⟨c, s, rfl⟩ := List.exists_cons_of_length_pos (by omega : 0 < s.length)
      rw [List.length_cons] at hs
      have htext : ∀ bs : Bytes, bs.length = n + 1 →
          ((c :: s).map lower = strFrom k bs ↔ c = 45 ∧ s.map lower = bodyFrom k bs) := by
        intro bs hlen
        rw [strFrom_dash hdash (List.ne_nil_of_length_eq_add_one hlen), List.map_cons,
          List.cons.injEq, lower_eq_dash]
      rw [parseFrom_sep hat]
      by_cases hc : c = 45
      · rw [if_neg (not_not.mpr hc), parseFrom_body_iff hbody hnext (by omega) (by omega) hrest]
        refine exists_congr fun bs => and_congr_right fun hlen => and_congr_left fun _ => ?_
        rw [htext bs hlen, and_iff_right hc]
      · rw [if_pos hc]
        constructor
        · intro h
          cases h
        · rintro ⟨bs, hlen, hbs, -⟩
          exact absurd ((htext bs hlen).mp hbs).1 hc
    · obtain ⟨hbody, hnext⟩ := textPos_digit (by omega) hdash
      simp only [strFrom_digit hdash]
      exact parseFrom_body_iff hbody hnext hs (by omega) hrest

/-- Parsing inverts `str`, up to the case of the letters. -/
theorem parse_eq_ok_iff {s : Bytes} {u : Uuid} : parse s = .ok u ↔ s.map lower = u.str := by
  unfold parse
  by_cases hs : s.length = 36
  · rw [if_neg (not_not.mpr hs)]
    have h := @parseFrom_eq_ok_iff 16 u 0 s [] rfl hs
    refine h.trans ⟨?_, fun htext => ⟨u.bytes, u.size_eq, htext, ext (ofBytes_bytes u.size_eq)⟩⟩
    rintro ⟨bs, hlen, htext, hu⟩
    rw [← hu, List.nil_append, str, ofBytes_bytes hlen, htext]
  · rw [if_pos hs]
    constructor
    · intro h
      cases h
    · intro htext
      refine absurd ?_ hs
      rw [← length_str u, ← htext, List.length_map]

/-! ## The accepted texts -/

/-- The character that a text has at position `i`. -/
def TextChar (i : Nat) (c : UInt8) : Prop := if DashAt i then c = 45 else IsHexDigit c

/-- Thirty-six characters, with dashes at positions 8, 13, 18 and 23 and hexadecimal digits
elsewhere. -/
structure IsText (s : Bytes) : Prop where
  size_eq : s.length = 36
  chars : ∀ (i : Nat) (c : UInt8), s[i]? = some c → TextChar i c

/-- The characters of `s` are right where it stands, at position `i` of the text. -/
def Fits (i : Nat) (s : Bytes) : Prop :=
  ∀ (j : Nat) (c : UInt8), s[j]? = some c → TextChar (i + j) c

theorem fits_nil (i : Nat) : Fits i [] := by simp [Fits]

theorem fits_cons {i : Nat} {c : UInt8} {s : Bytes} :
    Fits i (c :: s) ↔ TextChar i c ∧ Fits (i + 1) s := by
  constructor
  · intro h
    refine ⟨h 0 c rfl, fun j d hd => ?_⟩
    rw [Nat.add_right_comm]
    exact h (j + 1) d hd
  · rintro ⟨hc, hs⟩ j d hd
    cases j with
    | zero =>
      obtain rfl := Option.some.inj hd
      exact hc
    | succ j =>
      rw [← Nat.add_assoc, Nat.add_right_comm]
      exact hs j d hd

theorem octet_isSome (c d : UInt8) : (octet c d).isSome = true ↔ IsHexDigit c ∧ IsHexDigit d := by
  rw [isHexDigit_iff, isHexDigit_iff, octet]
  cases nibble c <;> cases nibble d <;> simp

theorem parseFrom_ok_iff (i di : Nat) (s out : Bytes) (hpos : Aligned i di)
    (hs : s.length + i = 36) : (∃ u, parseFrom i s out = .ok u) ↔ Fits i s := by
  match s with
  | [] => exact iff_of_true ⟨_, rfl⟩ (fits_nil i)
  | c :: t =>
    rw [List.length_cons] at hs
    by_cases hdash : DashAt i
    · rw [parseFrom_sep hdash, fits_cons, TextChar, if_pos hdash]
      by_cases hc : c = 45
      · rw [if_neg (not_not.mpr hc), and_iff_right hc]
        exact parseFrom_ok_iff (i + 1) di t out (hpos.dash hdash) (by omega)
      · rw [if_pos hc]
        exact iff_of_false nofun fun h => hc h.1
    · obtain ⟨hpos', hnext, -⟩ := hpos.octet hdash (by omega)
      have hnext' : ¬ DashAt (i + 1) := by
        have := hpos.seg
        omega
      obtain ⟨d, t, rfl⟩ := List.exists_cons_of_length_pos (by omega : 0 < t.length)
      rw [List.length_cons] at hs
      rw [parseFrom_pair hdash, fits_cons, fits_cons, TextChar, if_neg hdash, TextChar,
        if_neg hnext', ← and_assoc, ← octet_isSome]
      cases octet c d with
      | none => exact iff_of_false nofun nofun
      | some b =>
        rw [and_iff_right Option.isSome_some]
        exact parseFrom_ok_iff (i + 2) (di + 1) t _ hpos' (by omega)
termination_by s.length

theorem parse_ok_iff (s : Bytes) : (∃ u, parse s = .ok u) ↔ IsText s := by
  unfold parse
  by_cases hs : s.length = 36
  · rw [if_neg (not_not.mpr hs), parseFrom_ok_iff 0 0 s [] aligned_zero hs]
    constructor
    · intro h
      exact ⟨hs, fun i c hc => by simpa using h i c hc⟩
    · intro h j c hc
      rw [Nat.zero_add]
      exact h.chars j c hc
  · rw [if_pos hs]
    exact iff_of_false nofun fun h => hs h.size_eq

end Uuid
end AdapterFabric
