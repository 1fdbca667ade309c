import AdapterFabric.Transport
import AdapterFabric.Lib.ShortVector

/-!
# AdapterFabric.Checksum.Bursts

How much of a checksummed string may change unnoticed (`checksum.cpp`, `persistence.cpp`,
`transport.cpp`).

Two runs of FNV-1a that start alike are apart by a sum of what each byte changed, times powers of
the prime. A change at a byte is small, and no small changes at up to six neighbouring bytes sum up
to nothing modulo `2 ^ 64`: the lattice of such sums has no vector that short.

* `bursts_detected`: up to six neighbouring bytes may change in any way and it is noticed; seven may
  change and go unnoticed.
-/

namespace AdapterFabric

open ShortVector

/-! ## Two runs of the hash -/

/-- The prime, as a weight. -/
def prime : ℤ := 1099511628211

/-- What xoring a byte into the hash adds to it. -/
def added (h : UInt64) (b : UInt8) : ℤ := ((h ^^^ b.toUInt64).toNat : ℤ) - h.toNat

theorem xor_byte_div (h : UInt64) (b : UInt8) :
    (h ^^^ b.toUInt64).toNat / 256 = h.toNat / 256 := by
  have hb : b.toNat / 256 = 0 := Nat.div_eq_of_lt b.toNat_lt
  rw [UInt64.toNat_xor, UInt8.toNat_toUInt64, show 256 = 2 ^ 8 from rfl, Nat.xor_div_two_pow]
  rw [show 2 ^ 8 = 256 from rfl, hb, Nat.xor_zero]

theorem fnvStep_modEq (h : UInt64) (b : UInt8) :
    ((fnvStep h b).toNat : ℤ) ≡ prime * (h.toNat + added h b) [ZMOD (2 ^ 64 : ℕ)] := by
  have hstep : (fnvStep h b).toNat = (h ^^^ b.toUInt64).toNat * 1099511628211 % 2 ^ 64 := by
    rw [fnvStep, UInt64.toNat_mul]
    rfl
  rw [hstep, added, prime]
  push_cast
  rw [add_sub_cancel, mul_comm]
  exact Int.mod_modEq _ _

theorem abs_added_le (h : UInt64) (b : UInt8) : |added h b| ≤ 255 := by
  have := xor_byte_div h b
  rw [added, abs_le]
  omega

theorem abs_added_sub_le (h h' : UInt64) (b b' : UInt8) : |added h b - added h' b'| ≤ 510 := by
  have h₁ := abs_le.mp (abs_added_le h b)
  have h₂ := abs_le.mp (abs_added_le h' b')
  rw [abs_le]
  omega

theorem abs_added_sub_self_le (h : UInt64) (b b' : UInt8) : |added h b - added h b'| ≤ 255 := by
  have h₁ := xor_byte_div h b
  have h₂ := xor_byte_div h b'
  rw [added, added, abs_le]
  omega

theorem added_inj {h : UInt64} {b b' : UInt8} (heq : added h b = added h b') : b = b' := by
  have hn : (h ^^^ b.toUInt64).toNat = (h ^^^ b'.toUInt64).toNat := by
    unfold added at heq
    omega
  exact fnvStep_byte_injective h (congrArg (· * fnvPrime) (UInt64.toNat_inj.mp hn))

section Runs

variable {h : UInt64} {bs bs' : Bytes}

/-- The hash in front of byte `i`, and what that byte adds to it. -/
def hashAt (h : UInt64) (bs : Bytes) (i : ℕ) : UInt64 := fnv1a_64 h (bs.take i)

def addedAt (h : UInt64) (bs : Bytes) (i : ℕ) : ℤ := added (hashAt h bs i) (bs.getD i 0)

theorem hashAt_succ {i : ℕ} (hi : i < bs.length) :
    hashAt h bs (i + 1) = fnvStep (hashAt h bs i) (bs.getD i 0) := by
  rw [hashAt, hashAt, List.take_add_one, List.getElem?_eq_getElem hi, fnv1a_64, List.foldl_append]
  simp [List.getD_eq_getElem?_getD, List.getElem?_eq_getElem hi, fnv1a_64]

theorem hashAt_length (h : UInt64) (bs : Bytes) : hashAt h bs bs.length = fnv1a_64 h bs := by
  rw [hashAt, List.take_length]

theorem fnv1a_64_sub_modEq (h : UInt64) (hlen : bs'.length = bs.length) :
    ((fnv1a_64 h bs).toNat : ℤ) - (fnv1a_64 h bs').toNat ≡
      ∑ i ∈ Finset.range bs.length, prime ^ (bs.length - i) * (addedAt h bs i - addedAt h bs' i)
      [ZMOD (2 ^ 64 : ℕ)] := by
  rw [← hashAt_length h bs, ← hashAt_length h bs', hlen]
  refine sub_modEq (x := fun i => ((hashAt h bs i).toNat : ℤ))
    (y := fun i => ((hashAt h bs' i).toNat : ℤ)) rfl ?_ ?_
  · intro i hi
    simp only [hashAt_succ hi]
    exact fnvStep_modEq _ _
  · intro i hi
    simp only [hashAt_succ (hlen ▸ hi)]
    exact fnvStep_modEq _ _

theorem eq_of_addedAt (hlen : bs'.length = bs.length)
    (hadded : ∀ i < bs.length, addedAt h bs i = addedAt h bs' i) : bs' = bs := by
  have htake : ∀ i ≤ bs.length, bs'.take i = bs.take i := by
    intro i
    induction i with
    | zero => simp
    | succ i ih =>
      intro hi
      have hprev := ih (by omega)
      have hsame := hadded i (by omega)
      rw [addedAt, addedAt, hashAt, hashAt, hprev] at hsame
      have hbyte := added_inj hsame
      rw [List.take_add_one, List.take_add_one, hprev]
      rw [List.getD_eq_getElem?_getD, List.getD_eq_getElem?_getD] at hbyte
      rw [List.getElem?_eq_getElem (by omega), List.getElem?_eq_getElem (by omega)] at hbyte ⊢
      rw [Option.getD_some, Option.getD_some] at hbyte
      rw [hbyte]
  have hall := htake bs.length le_rfl
  rwa [← hlen, List.take_length, hlen, List.take_length] at hall

end Runs

/-! ## Six bytes -/

/-- What the changes at `k` bytes are multiplied by, and the difference in the end. -/
def weights (k : ℕ) : Fin (k + 1) → ℤ := fun i => prime ^ (k - i)

/-- The first change is made to equal hashes; in the end the last `6 - k` bytes may differ. -/
def bounds (k : ℕ) : Fin (k + 1) → ℤ := fun i =>
  if i = 0 then 255 else if i = Fin.last k then 256 ^ (6 - k) - 1 else 510

theorem bounds_last {k : ℕ} (hpos : 0 < k) : bounds k (Fin.last k) = 256 ^ (6 - k) - 1 := by
  have hne : Fin.last k ≠ 0 := Fin.ne_of_gt hpos
  simp [bounds, hne]

theorem bounds_castSucc {k : ℕ} (i : Fin k) :
    bounds k i.castSucc = if i.val = 0 then 255 else 510 := by
  have hlast : i.castSucc ≠ Fin.last k := i.castSucc_ne_last
  by_cases hi : i.val = 0
  · have hzero : i.castSucc = 0 := Fin.ext hi
    simp [bounds, hzero, hi]
  · have hne : i.castSucc ≠ 0 := fun hzero => hi (congrArg Fin.val hzero)
    simp [bounds, hne, hlast, hi]

def certificate₂ : Certificate (2 ^ 64) (weights 2) (bounds 2) where
  mult := ![-19284, 1, -16777216]
  basis := !![1, -870, 189225; 19284, 136, -3649074060; 0, 1, -1099511628211]
  small := by decide +kernel
  inverse := by decide +kernel

def certificate₃ : Certificate (2 ^ 64) (weights 3) (bounds 3) where
  mult := ![-174902457478, -352187318196, -16777216, -7583301631]
  basis := !![0, -1, 870, -189225; -1, 653, -435, -41061825; -13360, 961, 299, 6406934;
    76, -30306, 136, -521184810]
  small := by decide +kernel
  inverse := by decide +kernel

def certificate₄ : Certificate (2 ^ 64) (weights 4) (bounds 4) where
  mult := ![-72812496649319, -10712269191094, 14761584489622, -8526617377130, 12140412925601]
  basis := !![0, 0, -1, 870, -189225; -983, 153, 2280, -1119, 9433;
    -1077, 979, -1700, 1462, 142870; -285, 3758, -1042, -1257, -36864;
    242, 1584, 3341, 1570, 193283]
  small := by decide +kernel
  inverse := by decide +kernel

def certificate₅ : Certificate (2 ^ 64) (weights 5) (bounds 5) where
  mult := ![2518874921680656, 8671412534092605, -2434785518635867, -4410605614494224,
    5046382459189116, -8107455562062582]
  basis := !![-498, 48, 1232, -181, -811, 132; 135, 939, 191, 970, -527, 638;
    -281, -995, 551, 1392, -95, -338; -653, 106, -943, 348, -1115, -697;
    459, -926, -356, -387, -1225, 847; 715, 684, 713, 133, -943, -544]
  small := by decide +kernel
  inverse := by decide +kernel

theorem changes_eq_zero {k : ℕ} (hpos : 1 ≤ k) (hle : k ≤ 5) {v : Fin (k + 1) → ℤ}
    (hv : ∀ i, |v i| ≤ bounds k i) (hsum : ((2 ^ 64 : ℕ) : ℤ) ∣ ∑ i, weights k i * v i) :
    v = 0 := by
  have hm : 2 ^ 64 ≠ 0 := by decide
  obtain rfl | rfl | rfl | rfl | rfl : k = 1 ∨ k = 2 ∨ k = 3 ∨ k = 4 ∨ k = 5 := by omega
  · -- one byte: the prime is more than five bytes can differ by
    obtain ⟨t, ht⟩ := hsum
    have h₀ : |v 0| ≤ 255 := hv 0
    have h₁ : |v 1| ≤ 256 ^ 5 - 1 := hv 1
    have hv₀ : weights 1 0 = 1099511628211 := rfl
    have hv₁ : weights 1 1 = 1 := rfl
    rw [Fin.sum_univ_two, hv₀, hv₁] at ht
    rw [abs_le] at h₀ h₁
    have hsmall : t = 0 := by omega
    have hzero : v 0 = 0 ∧ v 1 = 0 := by omega
    funext i
    fin_cases i
    · exact hzero.1
    · exact hzero.2
  · exact certificate₂.eq_zero hm hv hsum
  · exact certificate₃.eq_zero hm hv hsum
  · exact certificate₄.eq_zero hm hv hsum
  · exact certificate₅.eq_zero hm hv hsum

/-- Up to five bytes, and hashes that differ in few of their last bytes: six bytes in all. -/
theorem eq_of_hashes_close {h : UInt64} {bs bs' : Bytes} {j : ℕ} (hlen : bs'.length = bs.length)
    (hj : 1 ≤ j) (hsix : bs.length + j ≤ 6)
    (hclose : |((fnv1a_64 h bs).toNat : ℤ) - (fnv1a_64 h bs').toNat| ≤ 256 ^ j - 1) : bs' = bs := by
  obtain hnil | hpos := Nat.eq_zero_or_pos bs.length
  · rw [List.length_eq_zero_iff.mp hnil, List.length_eq_zero_iff.mp (hlen.trans hnil)]
  let v : Fin (bs.length + 1) → ℤ := Fin.snoc (α := fun _ => ℤ)
    (fun i : Fin bs.length => addedAt h bs i - addedAt h bs' i)
    ((fnv1a_64 h bs').toNat - (fnv1a_64 h bs).toNat)
  have hv : v = 0 := by
    refine changes_eq_zero hpos (by omega) (fun i => ?_) ?_
    · induction i using Fin.lastCases with
      | last =>
        rw [bounds_last hpos]
        simp only [v, Fin.snoc_last]
        rw [abs_sub_comm]
        have hpow : (256 : ℤ) ^ j ≤ 256 ^ (6 - bs.length) :=
          pow_le_pow_right₀ (by decide) (by omega)
        omega
      | cast i =>
        rw [bounds_castSucc]
        simp only [v, Fin.snoc_castSucc]
        split
        · rename_i hzero
          simp only [addedAt, hashAt, hzero, List.take_zero]
          exact abs_added_sub_self_le _ _ _
        · exact abs_added_sub_le _ _ _ _
    · have hmod := fnv1a_64_sub_modEq h hlen
      rw [Finset.sum_range] at hmod
      have hdvd := Int.ModEq.dvd hmod
      rw [Fin.sum_univ_castSucc]
      simp only [v, weights, Fin.snoc_castSucc, Fin.snoc_last, Fin.val_castSucc, Fin.val_last,
        Nat.sub_self, pow_zero, one_mul]
      rwa [← neg_sub, ← sub_eq_add_neg]
  refine eq_of_addedAt (h := h) hlen fun i hi => ?_
  have hi' := congrFun hv (Fin.castSucc ⟨i, hi⟩)
  simp only [v, Fin.snoc_castSucc, Pi.zero_apply] at hi'
  exact sub_eq_zero.mp hi'

/-! ## Bursts -/

theorem bytesWord_close {B B' C : Bytes} (hlen : B'.length = B.length)
    (h8 : (B ++ C).length = 8) :
    |((bytesWord (B ++ C)).toNat : ℤ) - (bytesWord (B' ++ C)).toNat| ≤ 256 ^ B.length - 1 := by
  have h8' : (B' ++ C).length = 8 := by rw [List.length_append, hlen, ← List.length_append, h8]
  have hword (bs : Bytes) (hbs : bs.length = 8) : (bytesWord bs).toNat = LittleEndian.pack bs :=
    LittleEndian.orIn_zero_toNat (by rw [hbs])
  rw [hword _ h8, hword _ h8', LittleEndian.pack_append, LittleEndian.pack_append, hlen, abs_le]
  have hlt : (LittleEndian.pack B : ℤ) < 256 ^ B.length := by
    exact_mod_cast LittleEndian.pack_lt B
  have hlt' : (LittleEndian.pack B' : ℤ) < 256 ^ B.length := by
    rw [← hlen]
    exact_mod_cast LittleEndian.pack_lt B'
  push_cast
  omega

theorem bytesWord_inj {bs bs' : Bytes} (h : bs.length = 8) (h' : bs'.length = 8)
    (heq : bytesWord bs = bytesWord bs') : bs = bs' := by
  have := congrArg wordBytes heq
  rwa [wordBytes_bytesWord h, wordBytes_bytesWord h'] at this

/-- A burst within the payload: when all its bytes but the last are hashed, no more than that byte
may tell the hashes apart. -/
theorem eq_of_payload {h : UInt64} {B B' : Bytes} (hlen : B'.length = B.length)
    (hsix : B.length ≤ 6) (heq : fnv1a_64 h B' = fnv1a_64 h B) : B' = B := by
  obtain rfl | ⟨bs, b, rfl⟩ := B.eq_nil_or_concat
  · exact List.length_eq_zero_iff.mp hlen
  obtain rfl | ⟨bs', b', rfl⟩ := B'.eq_nil_or_concat
  · simp at hlen
  have hlen' : bs'.length = bs.length := by simpa using hlen
  simp only [fnv1a_64, List.concat_eq_append, List.foldl_append, List.foldl_cons,
    List.foldl_nil] at heq
  have hxor := mul_fnvPrime_inj heq
  have hdiv := xor_byte_div (fnv1a_64 h bs) b
  have hdiv' := xor_byte_div (fnv1a_64 h bs') b'
  unfold fnv1a_64 at hdiv hdiv'
  rw [hxor] at hdiv'
  obtain rfl : bs' = bs := by
    refine eq_of_hashes_close (h := h) (j := 1) hlen' le_rfl (by simpa using hsix) ?_
    unfold fnv1a_64
    rw [abs_le]
    omega
  rw [fnvStep_byte_injective _ heq]

/-- Up to six neighbouring bytes of a string that is checksummed before and after: they are the
same. -/
theorem burst_eq {A B B' C P P' T T' : Bytes} (hlen : B'.length = B.length) (hsix : B.length ≤ 6)
    (hb : P ++ T = A ++ (B ++ C)) (hb' : P' ++ T' = A ++ (B' ++ C)) (hP : P'.length = P.length)
    (hT : T.length = 8) (hT' : T'.length = 8) (hck : fnv1a_64 fnvSeed P = bytesWord T)
    (hck' : fnv1a_64 fnvSeed P' = bytesWord T') : B' = B := by
  obtain hafter | hbefore := le_or_gt P.length A.length
  · -- the payload is the same, so the trailer is
    rw [← List.take_append_drop P.length A, List.append_assoc] at hb hb'
    have hlenA : (A.take P.length).length = P.length := by simp [hafter]
    obtain ⟨hP₁, hT₁⟩ := List.append_inj hb hlenA.symm
    obtain ⟨hP₂, hT₂⟩ := List.append_inj hb' (hP.trans hlenA.symm)
    have htrailer := bytesWord_inj hT' hT (by rw [← hck, ← hck', hP₁, hP₂])
    rw [hT₁, hT₂] at htrailer
    exact (List.append_inj (List.append_cancel_left htrailer) hlen).1
  obtain hwithin | hacross := le_or_gt (A.length + B.length) P.length
  · -- the trailer is the same, so the hash is
    obtain ⟨m, hm⟩ := Nat.exists_eq_add_of_le hwithin
    have hsplit (B : Bytes) : A ++ (B ++ C) = (A ++ (B ++ C.take m)) ++ C.drop m := by simp
    have hbound : m ≤ C.length := by
      have := congrArg List.length hb
      simp only [List.length_append] at this
      omega
    have hlenP : (A ++ (B ++ C.take m)).length = P.length := by simp [hm, hbound, Nat.add_assoc]
    have hlenP' : (A ++ (B' ++ C.take m)).length = P.length := by
      simp [hm, hlen, hbound, Nat.add_assoc]
    obtain ⟨hP₁, hT₁⟩ := List.append_inj (hb.trans (hsplit B)) hlenP.symm
    obtain ⟨hP₂, hT₂⟩ := List.append_inj (hb'.trans (hsplit B')) (hP.trans hlenP'.symm)
    have hhash : fnv1a_64 fnvSeed P' = fnv1a_64 fnvSeed P := by rw [hck, hck', hT₁, hT₂]
    rw [hP₁, hP₂] at hhash
    simp only [fnv1a_64, List.foldl_append] at hhash
    exact eq_of_payload hlen hsix (FoldHash.foldl_injective fnvStep_injective _ hhash)
  · -- the changes to the payload do no more to the hash than those to the trailer
    obtain ⟨n, hn⟩ := Nat.exists_eq_add_of_lt hbefore
    have hsplit (B : Bytes) : A ++ (B ++ C) = (A ++ B.take (n + 1)) ++ (B.drop (n + 1) ++ C) := by
      rw [List.append_assoc, ← List.append_assoc (B.take _), List.take_append_drop]
    have hlenP : (A ++ B.take (n + 1)).length = P.length := by simp; omega
    have hlenP' : (A ++ B'.take (n + 1)).length = P.length := by simp; omega
    obtain ⟨hP₁, hT₁⟩ := List.append_inj (hb.trans (hsplit B)) hlenP.symm
    obtain ⟨hP₂, hT₂⟩ := List.append_inj (hb'.trans (hsplit B')) (hP.trans hlenP'.symm)
    have hdrop : (B'.drop (n + 1)).length = (B.drop (n + 1)).length := by simp [hlen]
    have hclose := bytesWord_close hdrop (hT₁ ▸ hT)
    rw [← hT₁, ← hT₂, ← hck, ← hck', hP₁, hP₂] at hclose
    simp only [fnv1a_64, List.foldl_append] at hclose
    have htake : B'.take (n + 1) = B.take (n + 1) := by
      refine eq_of_hashes_close (by simp [hlen]) ?_ ?_ hclose
      · simp; omega
      · simp; omega
    have htrailer := bytesWord_inj hT' hT (by rw [← hck, ← hck', hP₁, hP₂, htake])
    rw [hT₁, hT₂] at htrailer
    rw [← List.take_append_drop (n + 1) B', htake, (List.append_inj htrailer hdrop).1,
      List.take_append_drop]

/-- Changing up to `w` neighbouring bytes of an accepted string, in any way, is reported as a
checksum mismatch. -/
def DetectsBursts {α : Type} (w : ℕ) (decoder : Bytes → Except Error α) : Prop :=
  ∀ (A B B' C : Bytes) (a : α), decoder (A ++ (B ++ C)) = .ok a → B.length ≤ w →
    B'.length = B.length → B' ≠ B →
      decoder (A ++ (B' ++ C)) = .error ⟨.checksumMismatch, ascii "checksum mismatch"⟩

theorem exists_trailer {P b : Bytes} (hlen : b.length = P.length + 8) :
    ∃ P' T', b = P' ++ T' ∧ P'.length = P.length ∧ T'.length = 8 :=
  ⟨b.take P.length, b.drop P.length, (List.take_append_drop _ _).symm, by simp [hlen],
    by simp [hlen]⟩

theorem decode_detectsBursts {α : Type} (body : BinReader.Read α) :
    DetectsBursts 6 (decode body) := by
  intro A B B' C a h hsix hlen hne
  obtain ⟨r, hopen, -⟩ := bind_eq_ok.mp h
  obtain ⟨P, hfinish, -⟩ := open_inv hopen
  obtain ⟨P', T', hb', hP', hT'⟩ := exists_trailer (P := P) (b := A ++ (B' ++ C)) (by
    have := congrArg List.length hfinish
    simp only [finish, List.length_append, wordBytes_length] at this ⊢
    omega)
  refine decode_of_open_error ?_
  rw [hb', open_append P' hT', if_pos]
  intro hck'
  exact hne (burst_eq hlen hsix hfinish.symm hb'.symm hP' (wordBytes_length _) hT'
    (bytesWord_wordBytes _).symm hck')

/-- A burst behind the header of a frame that would have been received. -/
theorem recvFrame_burst {A B B' C P : Bytes} {grants : ℕ → ℕ} {s' : TcpSocket}
    (h : TcpSocket.recvFrame ⟨true, A ++ (B ++ C), grants⟩ = (some P, s')) (hheader : 4 ≤ A.length)
    (hframe : A.length + B.length ≤ 4 + P.length + 8) (hsix : B.length ≤ 6)
    (hlen : B'.length = B.length) (hne : B' ≠ B) (grants' : ℕ → ℕ) :
    (TcpSocket.recvFrame ⟨true, A ++ (B' ++ C), grants'⟩).1 = none := by
  obtain ⟨H, T, t, hstream, hf, hck⟩ := TcpSocket.recvFrame_some h
  have hlenA : (A.take 4).length = H.length := by simp [hf.header, hheader]
  rw [← List.take_append_drop 4 A, List.append_assoc, List.append_assoc] at hstream
  obtain ⟨hH, hrest⟩ := List.append_inj hstream hlenA
  -- what the frame has behind the burst
  obtain ⟨m, hm⟩ := Nat.exists_eq_add_of_le hframe
  have hsplit : A.drop 4 ++ (B ++ C) = (A.drop 4 ++ (B ++ C.take m)) ++ C.drop m := by simp
  have hbound : m ≤ C.length := by
    have := congrArg List.length hrest
    simp only [List.length_append, List.length_drop, hf.trailer] at this
    omega
  rw [hsplit] at hrest
  obtain ⟨hb, -⟩ := List.append_inj hrest (by simp [hf.trailer]; omega)
  obtain ⟨P', T', hb', hP', hT'⟩ :=
    exists_trailer (P := P) (b := A.drop 4 ++ (B' ++ C.take m)) (by simp; omega)
  have hf' : TcpSocket.IsFrame H P' T' := ⟨hf.header, hf.length.trans hP'.symm, hT'⟩
  obtain ⟨s, hs⟩ := hf'.recvFrame (C.drop m) grants'
  have hstream' : A ++ (B' ++ C) = H ++ (P' ++ T') ++ C.drop m := by
    rw [← hb', ← hH, ← List.append_assoc (A.take 4), List.take_append_drop]
    simp
  rw [hstream', hs, if_neg]
  rintro ⟨-, hck'⟩
  exact hne (burst_eq hlen hsix hb.symm hb'.symm hP' hf.trailer hT' hck.symm hck'.symm)

/-! ## Seven bytes -/

/-- Two messages that differ in seven neighbouring bytes of one field and have one checksum. -/
def collidingText : Bytes := [103, 41, 38, 71, 221, 107, 206]

def collidingText' : Bytes := [152, 173, 10, 190, 17, 97, 36]

theorem decodeMessage_collides : ¬ DetectsBursts 7 decodeMessage := by
  intro hdetects
  let around := encodeMessage { text := collidingText }
  have hsame : decodeMessage (around.take 5 ++ (collidingText ++ around.drop 12)) =
      .ok { text := collidingText } := by decide +kernel
  have hother : decodeMessage (around.take 5 ++ (collidingText' ++ around.drop 12)) =
      .ok { text := collidingText' } := by decide +kernel
  have herror := hdetects _ _ collidingText' _ _ hsame (by decide) (by decide) (by decide)
  rw [hother] at herror
  cases herror

/-- Any changes to up to six neighbouring bytes are noticed: in an encoded value by its decoder, and
behind the header of a frame by `recv_frame`. Changes to seven may not be. -/
theorem bursts_detected :
    DetectsBursts 6 decodeMessage ∧ DetectsBursts 6 decodeFence ∧
      DetectsBursts 6 deserializeAdapter ∧ DetectsBursts 6 deserializeSnapshot ∧
      (∀ (A B B' C P : Bytes) (grants : ℕ → ℕ) (s' : TcpSocket),
        TcpSocket.recvFrame ⟨true, A ++ (B ++ C), grants⟩ = (some P, s') → 4 ≤ A.length →
          A.length + B.length ≤ 4 + P.length + 8 → B.length ≤ 6 → B'.length = B.length → B' ≠ B →
            ∀ grants' : ℕ → ℕ, (TcpSocket.recvFrame ⟨true, A ++ (B' ++ C), grants'⟩).1 = none) ∧
      ¬ DetectsBursts 7 decodeMessage :=
  ⟨decode_detectsBursts _, decode_detectsBursts _, decode_detectsBursts _, decode_detectsBursts _,
    fun _ _ _ _ _ _ _ h hheader hframe hsix hlen hne grants' =>
      recvFrame_burst h hheader hframe hsix hlen hne grants',
    decodeMessage_collides⟩

/-- The first bytes of an encoded ping, and a frame's payload with half of its trailer. -/
theorem bursts_detected_sample :
    decodeMessage ([1, 2, 3, 4, 5, 6] ++ (encodeMessage {}).drop 6) =
        .error ⟨.checksumMismatch, ascii "checksum mismatch"⟩ ∧
      (TcpSocket.recvFrame ⟨true, (frame [1, 2]).take 4 ++
        ([1, 3, 0, 0, 0, 0] ++ (frame [1, 2]).drop 10), id⟩).1 = none := by
  obtain ⟨hmessage, -, -, -, hframe, -⟩ := bursts_detected
  constructor
  · exact hmessage [] ((encodeMessage {}).take 6) [1, 2, 3, 4, 5, 6] ((encodeMessage {}).drop 6) {}
      (by decide +kernel) (by decide +kernel) (by decide +kernel) (by decide +kernel)
  · have hsplit : frame [1, 2] ++ [] =
        (frame [1, 2]).take 4 ++ (((frame [1, 2]).drop 4).take 6 ++ (frame [1, 2]).drop 10) := by
      decide +kernel
    have hreceived := TcpSocket.recvFrame_frame (P := [1, 2]) (by decide) [] id
    rw [hsplit] at hreceived
    obtain ⟨s', hs'⟩ : ∃ s', TcpSocket.recvFrame ⟨true, _, id⟩ = (some [1, 2], s') :=
      ⟨_, Prod.ext hreceived rfl⟩
    exact hframe _ _ _ _ [1, 2] id s' hs' (by decide +kernel) (by decide +kernel)
      (by decide +kernel) (by decide +kernel) (by decide +kernel) id

end AdapterFabric
