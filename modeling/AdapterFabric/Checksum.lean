import AdapterFabric.Identity
import AdapterFabric.Lib.FoldHash

/-!
# AdapterFabric.Checksum

FNV-1a and hex digests (`checksum.hpp`, `checksum.cpp`).

One step of FNV-1a xors a byte in and multiplies by an odd constant, so it is injective in the
accumulator and in the byte.

* `fnv1a_64_set_ne`: changing one byte of the input always changes the hash.
* `checksum_set_ne`: so does changing one byte of a checksummed string, wherever it stands.
-/

namespace AdapterFabric

def fnvPrime : UInt64 := 1099511628211

/-- The start value every caller passes. -/
def fnvSeed : UInt64 := 1469598103934665603

def fnvStep (hash : UInt64) (b : UInt8) : UInt64 := (hash ^^^ b.toUInt64) * fnvPrime

def fnv1a_64 (hash : UInt64) (data : Bytes) : UInt64 := data.foldl fnvStep hash

def hexEncode (data : Bytes) : Bytes :=
  data.flatMap fun (b : UInt8) => [Uuid.hexDigit (b >>> 4), Uuid.hexDigit (b &&& 0x0F)]

/-- The eight bytes of a 64-bit word, as the shift loops of the source write them. -/
def wordBytes (v : UInt64) : Bytes := LittleEndian.shiftOut 8 v.toBitVec

/-- The word the shift-and-or loops of the source read off eight bytes. -/
def bytesWord (bs : Bytes) : UInt64 := ⟨LittleEndian.orIn 0 0#64 bs⟩

@[simp] theorem wordBytes_length (v : UInt64) : (wordBytes v).length = 8 :=
  LittleEndian.shiftOut_length 8 _

@[simp] theorem bytesWord_wordBytes (v : UInt64) : bytesWord (wordBytes v) = v :=
  congrArg UInt64.ofBitVec (LittleEndian.orIn_shiftOut (by decide) (by decide) v.toBitVec)

theorem wordBytes_bytesWord {bs : Bytes} (h : bs.length = 8) : wordBytes (bytesWord bs) = bs := by
  have hloop : LittleEndian.shiftOut bs.length (LittleEndian.orIn 0 0#64 bs) = bs :=
    LittleEndian.shiftOut_orIn (by rw [h]) (by omega)
  rwa [h] at hloop

theorem fnvPrime_inv : fnvPrime * 14886173955864302971 = 1 := by decide

theorem mul_fnvPrime_inj {x y : UInt64} (h : x * fnvPrime = y * fnvPrime) : x = y := by
  have h2 := congrArg (· * (14886173955864302971 : UInt64)) h
  simp only [UInt64.mul_assoc, fnvPrime_inv, UInt64.mul_one] at h2
  exact h2

theorem fnvStep_injective (b : UInt8) : Function.Injective fun h => fnvStep h b :=
  fun _ _ h => (UInt64.xor_left_inj _).mp (mul_fnvPrime_inj h)

theorem fnvStep_byte_injective (h : UInt64) : Function.Injective (fnvStep h) := by
  intro b c hbc
  have hx := (UInt64.xor_right_inj h).mp (mul_fnvPrime_inj hbc)
  have hn := congrArg UInt64.toNat hx
  rw [UInt8.toNat_toUInt64, UInt8.toNat_toUInt64] at hn
  exact UInt8.toNat_inj.mp hn

theorem fnv1a_64_set_ne {data : Bytes} {i : Nat} (hi : i < data.length) {v : UInt8} (hash : UInt64)
    (hv : v ≠ data[i]) : fnv1a_64 hash (data.set i v) ≠ fnv1a_64 hash data :=
  FoldHash.foldl_set_ne fnvStep_injective fnvStep_byte_injective hi hash hv

theorem bytesWord_set_ne {T : Bytes} (hT : T.length = 8) {i : Nat} (hi : i < T.length) {v : UInt8}
    (hv : v ≠ T[i]) : bytesWord (T.set i v) ≠ bytesWord T := by
  intro he
  have hset : T.set i v = T := by
    have := congrArg wordBytes he
    rwa [wordBytes_bytesWord (by rw [List.length_set, hT]), wordBytes_bytesWord hT] at this
  have hlt : i < (T.set i v).length := by rwa [List.length_set]
  have hget : (T.set i v)[i] = v := List.getElem_set_self _
  simp only [hset] at hget
  exact hv hget.symm

/-- A payload and a trailer that match stop matching when one byte of either is changed. -/
theorem checksum_set_ne {P T : Bytes} (hT : T.length = 8) (h : fnv1a_64 fnvSeed P = bytesWord T)
    {i : Nat} (hi : i < (P ++ T).length) {v : UInt8} (hv : v ≠ (P ++ T)[i]) :
    ∃ P' T', (P ++ T).set i v = P' ++ T' ∧ P'.length = P.length ∧ T'.length = 8 ∧
      fnv1a_64 fnvSeed P' ≠ bytesWord T' := by
  by_cases hp : i < P.length
  · rw [List.getElem_append_left hp] at hv
    refine ⟨P.set i v, T, List.set_append_left _ _ hp, by simp, hT, ?_⟩
    rw [← h]
    exact fnv1a_64_set_ne hp fnvSeed hv
  · have hp := Nat.not_lt.mp hp
    rw [List.getElem_append_right hp] at hv
    refine ⟨P, T.set (i - P.length) v, List.set_append_right _ _ hp, rfl, by simp [hT], ?_⟩
    rw [h]
    exact (bytesWord_set_ne hT (by rw [List.length_append] at hi; omega) hv).symm

end AdapterFabric
