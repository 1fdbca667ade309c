import Mathlib.Data.UInt
import Mathlib.Data.Nat.Bitwise

/-!
# Lib.LittleEndian

Little-endian byte strings of fixed width.

* `pack bs`: the number a byte string denotes, least significant byte first.
* `unpack n v`: the `n` low bytes of `v`.
* `pack_unpack` / `unpack_pack`: the two are inverse on `n` bytes and on numbers below `256 ^ n`.
* `shiftOut n v`: the loop `out.push((v >> (8 * i)) & 0xFF)` over a machine word.
* `orIn i v bs`: the loop `v |= b << (8 * i)` into a machine word.
* `orIn_shiftOut` / `shiftOut_orIn`: on a word of `n` bytes the two loops are inverse.
-/

namespace LittleEndian

def pack : List UInt8 → Nat
  | [] => 0
  | b :: bs => b.toNat + 256 * pack bs

def unpack : Nat → Nat → List UInt8
  | 0, _ => []
  | n + 1, v => UInt8.ofNat v :: unpack n (v / 256)

theorem pack_unpack {n v : Nat} (h : v < 256 ^ n) : pack (unpack n v) = v := by
  induction n generalizing v with
  | zero => simp at h; simp [unpack, pack, h]
  | succ n ih =>
    have hv : v / 256 < 256 ^ n := by rw [Nat.pow_succ] at h; omega
    simp only [unpack, pack, ih hv, UInt8.toNat_ofNat']
    omega

theorem unpack_pack (bs : List UInt8) : unpack bs.length (pack bs) = bs := by
  induction bs with
  | nil => rfl
  | cons b bs ih =>
    have hb : b.toNat < 256 := b.toNat_lt
    have hlow : UInt8.ofNat (b.toNat + 256 * pack bs) = b := by
      apply UInt8.toNat_inj.mp
      rw [UInt8.toNat_ofNat']
      omega
    have hhigh : (b.toNat + 256 * pack bs) / 256 = pack bs := by omega
    simp only [List.length_cons, pack, unpack, hlow, hhigh, ih]

theorem pack_lt (bs : List UInt8) : pack bs < 256 ^ bs.length := by
  induction bs with
  | nil => simp [pack]
  | cons b bs ih =>
    have hb : b.toNat < 256 := b.toNat_lt
    rw [pack, List.length_cons, Nat.pow_succ]
    omega

theorem pack_append (bs cs : List UInt8) :
    pack (bs ++ cs) = pack bs + 256 ^ bs.length * pack cs := by
  induction bs with
  | nil => simp [pack]
  | cons b bs ih =>
    rw [List.cons_append, pack, pack, ih, List.length_cons, Nat.pow_succ', Nat.mul_add,
      Nat.mul_assoc, Nat.add_assoc]

/-- The loop `v |= b << (8 * i)`, from byte `i` and accumulator `v`. -/
def orFold : Nat → Nat → List UInt8 → Nat
  | _, v, [] => v
  | i, v, b :: bs => orFold (i + 1) (v ||| b.toNat <<< (8 * i)) bs

/-- Below bit `8 * i` the accumulator is untouched, so each `or` adds. -/
theorem orFold_eq (bs : List UInt8) :
    ∀ {i v : Nat}, v < 2 ^ (8 * i) → orFold i v bs = v + 2 ^ (8 * i) * pack bs := by
  induction bs with
  | nil => intro i v _; simp [orFold, pack]
  | cons b bs ih =>
    intro i v hv
    have hb : b.toNat < 256 := b.toNat_lt
    have hor : v ||| b.toNat <<< (8 * i) = v + 2 ^ (8 * i) * b.toNat := by
      rw [Nat.or_comm, Nat.shiftLeft_eq, Nat.mul_comm b.toNat, ← Nat.two_pow_add_eq_or_of_lt hv,
        Nat.add_comm]
    have hpow : 2 ^ (8 * (i + 1)) = 2 ^ (8 * i) * 256 := by rw [Nat.mul_add, Nat.pow_add]
    have hlt : v + 2 ^ (8 * i) * b.toNat < 2 ^ (8 * (i + 1)) := by
      rw [hpow]
      have : 2 ^ (8 * i) * b.toNat ≤ 2 ^ (8 * i) * 255 := Nat.mul_le_mul_left _ (by omega)
      omega
    rw [orFold, hor, ih hlt, hpow, pack, Nat.mul_add, Nat.mul_assoc, Nat.add_assoc]

theorem unpack_eq_map (n v : Nat) :
    unpack n v = (List.range n).map fun i => UInt8.ofNat (v / 256 ^ i) := by
  induction n generalizing v with
  | zero => rfl
  | succ n ih =>
    rw [unpack, ih, List.range_succ_eq_map, List.map_cons, List.map_map]
    simp only [Nat.pow_zero, Nat.div_one, Function.comp_def, Nat.pow_succ', Nat.div_div_eq_div_mul]

/-! ## Machine words -/

def shiftOut (n : Nat) {w : Nat} (v : BitVec w) : List UInt8 :=
  (List.range n).map fun i => ⟨((v >>> (8 * i)) &&& 0xFF#w).setWidth 8⟩

def orIn {w : Nat} : Nat → BitVec w → List UInt8 → BitVec w
  | _, v, [] => v
  | i, v, b :: bs => orIn (i + 1) (v ||| b.toBitVec.setWidth w <<< (8 * i)) bs

@[simp] theorem shiftOut_length (n : Nat) {w : Nat} (v : BitVec w) :
    (shiftOut n v).length = n := by
  simp [shiftOut]

theorem shiftOut_eq {w : Nat} (hw : 8 ≤ w) (n : Nat) (v : BitVec w) :
    shiftOut n v = unpack n v.toNat := by
  rw [unpack_eq_map]
  apply List.map_congr_left
  intro i _
  apply UInt8.toNat_inj.mp
  have h255 : 255 % 2 ^ w = 2 ^ 8 - 1 := by
    have : 2 ^ 8 ≤ 2 ^ w := Nat.pow_le_pow_right (by omega) hw
    exact Nat.mod_eq_of_lt (Nat.lt_of_lt_of_le (by decide) this)
  have hpow : 2 ^ (8 * i) = 256 ^ i := by rw [Nat.pow_mul]
  show (((v >>> (8 * i)) &&& 0xFF#w).setWidth 8).toNat = _
  rw [BitVec.toNat_setWidth, BitVec.toNat_and, BitVec.toNat_ushiftRight, BitVec.toNat_ofNat, h255,
    Nat.and_two_pow_sub_one_eq_mod, Nat.mod_mod, Nat.shiftRight_eq_div_pow, hpow,
    UInt8.toNat_ofNat']

theorem orIn_toNat {w : Nat} (bs : List UInt8) :
    ∀ {i : Nat} {v : BitVec w}, 8 * (i + bs.length) ≤ w →
      (orIn i v bs).toNat = orFold i v.toNat bs := by
  induction bs with
  | nil => intro i v _; rfl
  | cons b bs ih =>
    intro i v h
    rw [List.length_cons] at h
    have hb : b.toNat < 2 ^ 8 := b.toNat_lt
    have hw : b.toNat < 2 ^ w := Nat.lt_of_lt_of_le hb (Nat.pow_le_pow_right (by omega) (by omega))
    have hs : b.toNat <<< (8 * i) < 2 ^ w := by
      rw [Nat.shiftLeft_eq]
      calc b.toNat * 2 ^ (8 * i) < 2 ^ 8 * 2 ^ (8 * i) :=
            Nat.mul_lt_mul_of_pos_right hb (Nat.two_pow_pos _)
        _ = 2 ^ (8 + 8 * i) := (Nat.pow_add 2 8 (8 * i)).symm
        _ ≤ 2 ^ w := Nat.pow_le_pow_right (by omega) (by omega)
    have hstep : (v ||| b.toBitVec.setWidth w <<< (8 * i)).toNat =
        v.toNat ||| b.toNat <<< (8 * i) := by
      rw [BitVec.toNat_or, BitVec.toNat_shiftLeft, BitVec.toNat_setWidth]
      show v.toNat ||| (b.toNat % 2 ^ w) <<< (8 * i) % 2 ^ w = _
      rw [Nat.mod_eq_of_lt hw, Nat.mod_eq_of_lt hs]
    rw [orIn, ih (by omega), hstep, orFold]

theorem orIn_zero_toNat {w : Nat} {bs : List UInt8} (h : 8 * bs.length = w) :
    (orIn 0 0#w bs).toNat = pack bs := by
  rw [orIn_toNat bs (by omega), BitVec.toNat_ofNat, Nat.zero_mod, orFold_eq bs (by simp)]
  simp

theorem orIn_shiftOut {n w : Nat} (h : 8 * n = w) (hn : 0 < n) (v : BitVec w) :
    orIn 0 0#w (shiftOut n v) = v := by
  apply BitVec.eq_of_toNat_eq
  have hv : v.toNat < 256 ^ n := by
    have hpow : 256 ^ n = 2 ^ w := by rw [← h, Nat.pow_mul]
    rw [hpow]; exact v.isLt
  rw [orIn_zero_toNat (by rw [shiftOut_length, h]), shiftOut_eq (by omega), pack_unpack hv]

theorem shiftOut_orIn {w : Nat} {bs : List UInt8} (h : 8 * bs.length = w) (hn : 0 < bs.length) :
    shiftOut bs.length (orIn 0 0#w bs) = bs := by
  rw [shiftOut_eq (by omega), orIn_zero_toNat h, unpack_pack]

end LittleEndian
