import AdapterFabric.Lib.LittleEndian

/-!
# AdapterFabric.Identity

Byte strings, the process-wide generator, 128-bit identities and monotonic generations
(`rng.hpp`, `uuid.hpp`, `uuid.cpp`, `identity.hpp`, `generation.hpp`).

* `str_inj`: the canonical text determines the identity, so a table keyed by `id.str()` is a table
  keyed by the identity itself.
* `parse_str`: parsing the canonical text gives the identity back.
-/

namespace AdapterFabric

/-- A byte string: `std::string` and `std::vector<std::uint8_t>` alike. -/
abbrev Bytes := List UInt8

/-- The bytes of a string literal of the source; all of them are ASCII. -/
def ascii (s : String) : Bytes := s.toList.map Char.toUInt8

/-- `std::to_string` on an unsigned value. -/
def decimal (n : Nat) : Bytes := (Nat.toDigits 10 n).map Char.toUInt8

theorem toDigits_toUInt8 {n : Nat} {c : Char} (h : c ∈ Nat.toDigits 10 n) :
    c.toUInt8.toNat = c.toNat ∧ 48 ≤ c.toNat ∧ c.toNat ≤ 57 := by
  have hdigit := Nat.isDigit_of_mem_toDigits (by decide) (by decide) h
  simp only [Char.isDigit, Bool.and_eq_true, decide_eq_true_eq] at hdigit
  have h1 : 48 ≤ c.toNat := hdigit.1
  have h2 : c.toNat ≤ 57 := hdigit.2
  refine ⟨?_, h1, h2⟩
  rw [Char.toUInt8, UInt32.toNat_toUInt8]
  exact Nat.mod_eq_of_lt (by omega : c.toNat < 256)

theorem mem_decimal {n : Nat} {b : UInt8} (h : b ∈ decimal n) : 48 ≤ b.toNat ∧ b.toNat ≤ 57 := by
  obtain ⟨c, hc, rfl⟩ := List.mem_map.mp h
  obtain ⟨he, hc⟩ := toDigits_toUInt8 hc
  rwa [he]

theorem decimal_injective : Function.Injective decimal := by
  intro m n h
  have hchars (n : Nat) :
      (decimal n).map (fun b : UInt8 => Char.ofNat b.toNat) = Nat.toDigits 10 n := by
    rw [decimal, List.map_map]
    refine (List.map_congr_left fun c hc => ?_).trans (List.map_id _)
    rw [Function.comp_apply, (toDigits_toUInt8 hc).1, Char.ofNat_toNat, id]
  rw [← Nat.ofDigitChars_ten_toDigits (n := m), ← hchars m, h, hchars n,
    Nat.ofDigitChars_ten_toDigits]

/-! ## The generator -/

/-- splitmix64. -/
structure Rng where
  state : UInt64
deriving DecidableEq

namespace Rng

/-- The initial state of the process-wide `Rng::instance()`. -/
def instanceInit : Rng := ⟨0x9E3779B97F4A7C15⟩

def next (r : Rng) : UInt64 × Rng :=
  let s := r.state + 0x9E3779B97F4A7C15
  let z := (s ^^^ (s >>> 30)) * 0xBF58476D1CE4E5B9
  let z := (z ^^^ (z >>> 27)) * 0x94D049BB133111EB
  (z ^^^ (z >>> 31), ⟨s⟩)

/-- `k` draws, each as its eight bytes in memory. -/
def words : Nat → Rng → Bytes × Rng
  | 0, r => ([], r)
  | k + 1, r =>
    let (v, r) := r.next
    let (bs, r) := words k r
    (LittleEndian.unpack 8 v.toNat ++ bs, r)

/-- `n` octets; the last draw is cut short when `n` is not a multiple of eight. -/
def fill (r : Rng) (n : Nat) : Bytes × Rng :=
  let (bs, r) := words ((n + 7) / 8) r
  (bs.take n, r)

end Rng

/-! ## UUIDs -/

structure Uuid where
  bytes : Bytes
  size_eq : bytes.length = 16
deriving DecidableEq

namespace Uuid

@[ext] theorem ext {u v : Uuid} (h : u.bytes = v.bytes) : u = v := by
  cases u; cases v; cases h; rfl

/-- A zero-initialised `std::array<std::uint8_t, 16>` filled from its front. -/
def ofBytes (bs : Bytes) : Uuid :=
  ⟨(bs ++ List.replicate 16 0).take 16, by simp⟩

@[simp] theorem ofBytes_bytes {bs : Bytes} (h : bs.length = 16) : (ofBytes bs).bytes = bs := by
  simp [ofBytes, h]

def nil : Uuid := ⟨List.replicate 16 0, rfl⟩

def isNil (u : Uuid) : Bool := u.bytes.all (· == 0)

/-- Sixteen drawn octets, stamped with version 4 and the RFC variant. -/
def generate (rng : Rng) : Uuid × Rng :=
  let (bs, rng) := rng.fill 16
  (ofBytes ((bs.modify 6 fun b => (b &&& 0x0F) ||| 0x40).modify 8 fun b => (b &&& 0x3F) ||| 0x80),
    rng)

def hexDigit (n : UInt8) : UInt8 := (ascii "0123456789abcdef").getD n.toNat 0

/-- Positions of `str`'s output before which a dash is written. -/
def dashBefore (k : Nat) : Bool := k == 4 || k == 6 || k == 8 || k == 10

/-- The loop of `Uuid::str`, from byte `k` on. -/
def strFrom : Nat → Bytes → Bytes
  | _, [] => []
  | k, b :: bs =>
    (if dashBefore k then ascii "-" else []) ++
      hexDigit (b >>> 4) :: hexDigit (b &&& 0x0F) :: strFrom (k + 1) bs

/-- The canonical 8-4-4-4-12 text. -/
def str (u : Uuid) : Bytes := strFrom 0 u.bytes

/-- The value of a hexadecimal digit; `none` is the source's `-1`. -/
def nibble (c : UInt8) : Option UInt8 :=
  if 48 ≤ c ∧ c ≤ 57 then some (c - 48)
  else if 97 ≤ c ∧ c ≤ 102 then some (c - 97 + 10)
  else if 65 ≤ c ∧ c ≤ 70 then some (c - 65 + 10)
  else none

/-- The loop of `Uuid::parse` at position `i`, `s` being what is left of the text and `out` the
octets found so far. -/
def parseFrom (i : Nat) (s out : Bytes) : Except Bytes Uuid :=
  match s with
  | [] => .ok (ofBytes out)
  | c :: s =>
    if i = 8 ∨ i = 13 ∨ i = 18 ∨ i = 23 then
      if c ≠ 45 then .error (ascii "expected a dash at position " ++ decimal i)
      else parseFrom (i + 1) s out
    else
      match s with
      -- `s[i + 1]` would lie past the end; no text of 36 characters comes here
      | [] => .error (ascii "invalid hex digit")
      | d :: s =>
        match nibble c, nibble d with
        | some hi, some lo => parseFrom (i + 2) s (out ++ [(hi <<< 4) ||| lo])
        | _, _ => .error (ascii "invalid hex digit")

def parse (s : Bytes) : Except Bytes Uuid :=
  if s.length ≠ 36 then .error (ascii "expected a 36-character UUID")
  else parseFrom 0 s []

theorem length_of_parse {s : Bytes} {u : Uuid} (h : parse s = .ok u) : s.length = 36 := by
  by_contra hlen
  rw [parse, if_pos hlen] at h
  cases h

theorem hexDigit_inj : ∀ {m n : UInt8}, m < 16 → n < 16 → hexDigit m = hexDigit n → m = n := by
  have key : ∀ m < 16, ∀ n < 16,
      hexDigit (UInt8.ofNat m) = hexDigit (UInt8.ofNat n) → m = n := by decide
  intro m n hm hn h
  have := key m.toNat hm n.toNat hn (by simpa using h)
  exact UInt8.toNat_inj.mp this

theorem nibbles_inj {b c : UInt8} (hhi : b >>> 4 = c >>> 4) (hlo : b &&& 0x0F = c &&& 0x0F) :
    b = c := by
  have h1 := congrArg UInt8.toNat hhi
  have h2 := congrArg UInt8.toNat hlo
  rw [UInt8.toNat_shiftRight, UInt8.toNat_shiftRight] at h1
  rw [UInt8.toNat_and, UInt8.toNat_and] at h2
  have e (n : Nat) : n &&& (0x0F : UInt8).toNat = n % 16 := Nat.and_two_pow_sub_one_eq_mod n 4
  have s (n : Nat) : n >>> ((4 : UInt8).toNat % 8) = n / 16 := Nat.shiftRight_eq_div_pow n 4
  rw [e, e] at h2
  rw [s, s] at h1
  apply UInt8.toNat_inj.mp
  omega

theorem nibble_lt (b : UInt8) : b >>> 4 < 16 ∧ b &&& 0x0F < 16 := by
  constructor
  · apply UInt8.lt_iff_toNat_lt.mpr
    rw [UInt8.toNat_shiftRight]
    have : b.toNat < 256 := b.toNat_lt
    have s : b.toNat >>> ((4 : UInt8).toNat % 8) = b.toNat / 16 := Nat.shiftRight_eq_div_pow _ 4
    rw [s]
    show b.toNat / 16 < 16
    omega
  · apply UInt8.lt_iff_toNat_lt.mpr
    rw [UInt8.toNat_and]
    have e : b.toNat &&& (0x0F : UInt8).toNat = b.toNat % 16 := Nat.and_two_pow_sub_one_eq_mod _ 4
    rw [e]
    show b.toNat % 16 < 16
    omega

/-- The text determines the octets: dashes stand at fixed positions and each octet is two digits. -/
theorem strFrom_inj : ∀ {bs cs : Bytes} {k : Nat}, strFrom k bs = strFrom k cs → bs = cs := by
  intro bs
  induction bs with
  | nil =>
    intro cs k h
    cases cs with
    | nil => rfl
    | cons c cs => simp [strFrom] at h
  | cons b bs ih =>
    intro cs k h
    cases cs with
    | nil => simp [strFrom] at h
    | cons c cs =>
      simp only [strFrom] at h
      have h := List.append_cancel_left h
      obtain ⟨hhi, h⟩ := List.cons.inj h
      obtain ⟨hlo, h⟩ := List.cons.inj h
      have hb := nibbles_inj (hexDigit_inj (nibble_lt b).1 (nibble_lt c).1 hhi)
        (hexDigit_inj (nibble_lt b).2 (nibble_lt c).2 hlo)
      rw [hb, ih h]

theorem str_inj {u v : Uuid} (h : u.str = v.str) : u = v := ext (strFrom_inj h)

theorem nibble_hexDigit {n : UInt8} (hn : n < 16) : nibble (hexDigit n) = some n := by
  have key : ∀ n < 16, nibble (hexDigit (UInt8.ofNat n)) = some (UInt8.ofNat n) := by decide
  have h := key n.toNat (UInt8.lt_iff_toNat_lt.mp hn)
  rwa [UInt8.ofNat_toNat] at h

theorem nibbles_join (b : UInt8) : (b >>> 4) <<< 4 ||| (b &&& 0x0F) = b := by
  have key : ∀ n < 256,
      (UInt8.ofNat n >>> 4) <<< 4 ||| (UInt8.ofNat n &&& 0x0F) = UInt8.ofNat n := by
    decide +kernel
  simpa using key b.toNat b.toNat_lt

/-- The positions of the dashes. -/
abbrev DashAt (i : Nat) : Prop := i = 8 ∨ i = 13 ∨ i = 18 ∨ i = 23

theorem parseFrom_octet {i : Nat} (hi : ¬ DashAt i) (b : UInt8) (s out : Bytes) :
    parseFrom i (hexDigit (b >>> 4) :: hexDigit (b &&& 0x0F) :: s) out =
      parseFrom (i + 2) s (out ++ [b]) := by
  rw [parseFrom.eq_def]
  simp only [if_neg hi, nibble_hexDigit (nibble_lt b).1, nibble_hexDigit (nibble_lt b).2,
    nibbles_join]

theorem parseFrom_sep {i : Nat} (hi : DashAt i) (c : UInt8) (s out : Bytes) :
    parseFrom i (c :: s) out =
      if c ≠ 45 then .error (ascii "expected a dash at position " ++ decimal i)
      else parseFrom (i + 1) s out := by
  rw [parseFrom.eq_def]
  simp only [if_pos hi]

/-- Where `parse` is in the text when `str` has written `k` octets. -/
def textPos (k : Nat) : Nat :=
  2 * k + (if 4 < k then 1 else 0) + (if 6 < k then 1 else 0) + (if 8 < k then 1 else 0) +
    (if 10 < k then 1 else 0)

theorem textPos_dash {k : Nat} (h : dashBefore k = true) : DashAt (textPos k) ∧
    ¬ DashAt (textPos k + 1) ∧ textPos (k + 1) = textPos k + 1 + 2 := by
  simp only [dashBefore, Bool.or_eq_true, beq_iff_eq] at h
  rcases h with ((rfl | rfl) | rfl) | rfl <;> decide

theorem textPos_digit {k : Nat} (hk : k < 16) (h : ¬ dashBefore k = true) :
    ¬ DashAt (textPos k) ∧ textPos (k + 1) = textPos k + 2 := by
  simp only [dashBefore, Bool.or_eq_true, beq_iff_eq] at h
  unfold textPos
  constructor <;> split_ifs <;> omega

theorem parseFrom_strFrom {bs : Bytes} : ∀ {k : Nat} (out : Bytes), k + bs.length ≤ 16 →
    parseFrom (textPos k) (strFrom k bs) out = .ok (ofBytes (out ++ bs)) := by
  induction bs with
  | nil =>
    intro k out _
    rw [List.append_nil]
    rfl
  | cons b bs ih =>
    intro k out hk
    rw [List.length_cons] at hk
    have hrest := ih (k := k + 1) (out ++ [b]) (by omega)
    rw [List.append_assoc, List.singleton_append] at hrest
    rw [strFrom]
    by_cases hdash : dashBefore k = true
    · obtain ⟨hat, hbody, hnext⟩ := textPos_dash hdash
      rw [if_pos hdash, show ascii "-" = [45] from rfl, List.singleton_append, parseFrom_sep hat,
        if_neg (by decide), parseFrom_octet hbody, ← hnext]
      exact hrest
    · obtain ⟨hbody, hnext⟩ := textPos_digit (by omega) hdash
      rw [if_neg hdash, List.nil_append, parseFrom_octet hbody, ← hnext]
      exact hrest

theorem strFrom_length (bs : Bytes) : ∀ k, (strFrom k bs).length =
    2 * bs.length + (List.range' k bs.length).countP dashBefore := by
  induction bs with
  | nil => intro k; rfl
  | cons b bs ih =>
    intro k
    rw [strFrom, List.length_append, List.length_cons, List.length_cons, ih, List.length_cons,
      List.range'_succ, List.countP_cons]
    split <;> simp [ascii] <;> omega

theorem length_str (u : Uuid) : u.str.length = 36 := by
  rw [str, strFrom_length, u.size_eq]
  decide

theorem parse_str (u : Uuid) : parse u.str = .ok u := by
  rw [parse, if_neg (not_not.mpr (length_str u))]
  have h : parseFrom (textPos 0) (strFrom 0 u.bytes) [] = .ok (ofBytes ([] ++ u.bytes)) :=
    parseFrom_strFrom [] (by rw [u.size_eq])
  rw [List.nil_append] at h
  exact h.trans (congrArg _ (ext (ofBytes_bytes u.size_eq)))

end Uuid

/-! ## Strongly typed identities and generations -/

/-- The tag types of `namespace idtag`. -/
inductive IdTag where
  | adapterId | adapterRevisionId | adapterArtifactId | adapterInstanceId | compositionId
  | baseModelId | modelRevisionId | workerId | workerBootId | nodeId | deviceId | attemptId
deriving DecidableEq

structure Id (tag : IdTag) where
  uuid : Uuid
deriving DecidableEq

namespace Id

variable {tag : IdTag}

def nil : Id tag := ⟨.nil⟩

def generate (rng : Rng) : Id tag × Rng :=
  let (u, rng) := Uuid.generate rng
  (⟨u⟩, rng)

def parse (s : Bytes) : Except Bytes (Id tag) := (Uuid.parse s).map Id.mk

def isNil (i : Id tag) : Bool := i.uuid.isNil

def str (i : Id tag) : Bytes := i.uuid.str

theorem str_inj {i j : Id tag} (h : i.str = j.str) : i = j := by
  cases i; cases j
  exact congrArg Id.mk (Uuid.str_inj h)

theorem parse_str (i : Id tag) : parse i.str = .ok i := by
  rw [parse, str, Uuid.parse_str]
  rfl

@[simp] theorem str_eq_iff {i j : Id tag} : i.str = j.str ↔ i = j :=
  ⟨str_inj, fun h => h ▸ rfl⟩

end Id

abbrev AdapterId := Id .adapterId
abbrev AdapterRevisionId := Id .adapterRevisionId
abbrev AdapterArtifactId := Id .adapterArtifactId
abbrev AdapterInstanceId := Id .adapterInstanceId
abbrev CompositionId := Id .compositionId
abbrev BaseModelId := Id .baseModelId
abbrev ModelRevisionId := Id .modelRevisionId
abbrev WorkerId := Id .workerId
abbrev WorkerBootId := Id .workerBootId
abbrev NodeId := Id .nodeId
abbrev DeviceId := Id .deviceId
abbrev AttemptId := Id .attemptId

/-- The tag types of `namespace gen`. -/
inductive GenTag where
  | adapter | residency | composition | artifact | coordinatorEpoch | policy
deriving DecidableEq

/-- A monotonic generation; zero means no generation exists yet. -/
structure Generation (tag : GenTag) where
  value : UInt64
deriving DecidableEq

namespace Generation

variable {tag : GenTag}

def none : Generation tag := ⟨0⟩

def isNone (g : Generation tag) : Bool := g.value == 0

/-- The successor, saturating at `2^64 - 1`. -/
def next (g : Generation tag) : Generation tag :=
  let v := if g.value = 0xFFFFFFFFFFFFFFFF then g.value else g.value + 1
  ⟨if v = 0 then 1 else v⟩

theorem toNat_next (g : Generation tag) :
    g.next.value.toNat =
      if g.value.toNat = 2 ^ 64 - 1 then g.value.toNat else g.value.toNat + 1 := by
  have hlt : g.value.toNat < 2 ^ 64 := g.value.toNat_lt
  have hmax : (0xFFFFFFFFFFFFFFFF : UInt64).toNat = 2 ^ 64 - 1 := rfl
  by_cases h : g.value = 0xFFFFFFFFFFFFFFFF
  · have hz : ¬ g.value = 0 := by rw [h]; decide
    have hn : g.value.toNat = 2 ^ 64 - 1 := by rw [h, hmax]
    simp only [next, if_pos h, if_neg hz, if_pos hn]
  · have hn : ¬ g.value.toNat = 2 ^ 64 - 1 := fun e => h (UInt64.toNat_inj.mp (by rw [e, hmax]))
    have hs : (g.value + 1).toNat = g.value.toNat + 1 := by
      rw [UInt64.toNat_add]
      show (g.value.toNat + 1) % 2 ^ 64 = _
      omega
    have hz : ¬ g.value + 1 = 0 := by
      intro e
      rw [e] at hs
      exact absurd hs (by simp)
    simp only [next, if_neg h, if_neg hz, hs, if_neg hn]

theorem le_next (g : Generation tag) : g.value.toNat ≤ g.next.value.toNat := by
  rw [toNat_next]
  split <;> omega

end Generation

abbrev AdapterGeneration := Generation .adapter
abbrev ResidencyGeneration := Generation .residency
abbrev CompositionGeneration := Generation .composition
abbrev ArtifactGeneration := Generation .artifact
abbrev CoordinatorEpoch := Generation .coordinatorEpoch
abbrev PolicyGeneration := Generation .policy

end AdapterFabric
