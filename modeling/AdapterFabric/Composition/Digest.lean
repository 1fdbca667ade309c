import AdapterFabric.Composition
import AdapterFabric.Identity.Text
import AdapterFabric.Lib.Delimited

/-!
# AdapterFabric.Composition.Digest

What `compute_digest` hashes (`composition.cpp`, `uuid.cpp`).

* `canonicalText_inj`: the canonical text determines the members, in order, and the policy.
-/

namespace AdapterFabric

open Delimited

theorem delimits_str (tag : IdTag) : Delimits (Id.str : Id tag → Bytes) :=
  fixed (fun _ _ h => Id.str_inj h) fun i => i.uuid.length_str

/-- A decimal ends where a symbol follows that is no digit. -/
theorem decimal_sep {e : UInt8} (he : ¬ (48 ≤ e.toNat ∧ e.toNat ≤ 57)) {m n : Nat} {s t : Bytes}
    (h : decimal m ++ e :: s = decimal n ++ e :: t) : m = n ∧ s = t := by
  obtain ⟨hmn, hst⟩ := append_cons_inj (fun hm => he (mem_decimal hm))
    (fun hn => he (mem_decimal hn)) h
  exact ⟨decimal_injective hmn, hst⟩

/-- The text of an identity begins with a digit, not with a separator. -/
theorem head?_str {tag : IdTag} (i : Id tag) :
    ∃ n : UInt8, i.str.head? = some (Uuid.hexDigit n) ∧ n < 16 := by
  obtain ⟨b, bs, hb⟩ := List.exists_cons_of_length_pos
    (by rw [i.uuid.size_eq]; decide : 0 < i.uuid.bytes.length)
  refine ⟨b >>> 4, ?_, (Uuid.nibble_lt b).1⟩
  rw [Id.str, Uuid.str, hb]
  rfl

namespace CompositionBuilder

theorem delimits_memberText : Delimits memberText := by
  intro m m' s t h
  have hbar : ascii "|" = [124] := rfl
  have hend : ascii ";" = [59] := rfl
  simp only [memberText, hbar, hend, List.append_assoc, List.cons_append, List.nil_append] at h
  -- field by field: a text of fixed length, or digits up to the separator
  obtain ⟨hid, h⟩ := delimits_str _ _ _ _ _ h
  obtain ⟨hrev, h⟩ := delimits_str _ _ _ _ _ (List.cons.inj h).2
  obtain ⟨hgen, h⟩ := decimal_sep (by decide) (List.cons.inj h).2
  obtain ⟨hbytes, h⟩ := decimal_sep (by decide) h
  obtain ⟨hkind, h⟩ := decimal_sep (by decide) h
  refine ⟨?_, h⟩
  cases m with | mk id rev gen bytes kind =>
  cases m' with | mk id' rev' gen' bytes' kind' =>
  cases gen
  cases gen'
  cases kind
  cases kind'
  simp_all [UInt64.toNat_inj, UInt8.toNat_inj]

/-- The members are listed up to the `@`, with which no member begins. -/
theorem delimits_members :
    Delimits fun members : List CompositionMember => members.flatMap memberText ++ [64] := by
  refine delimits_memberText.list fun m => ?_
  obtain ⟨n, hhead, hn⟩ := head?_str m.adapterId
  refine ⟨Uuid.hexDigit n, ?_, ?_⟩
  · simp only [memberText, List.head?_append, hhead, Option.some_or]
  · have key : ∀ n < 16, Uuid.hexDigit (UInt8.ofNat n) ≠ 64 := by decide
    simpa using key n.toNat (UInt8.lt_iff_toNat_lt.mp hn)

theorem canonicalText_inj {members members' : List CompositionMember} {policy policy' : Bytes} :
    canonicalText members policy = canonicalText members' policy' ↔
      members = members' ∧ policy = policy' := by
  constructor
  · exact delimits_members members members' policy policy'
  · rintro ⟨rfl, rfl⟩
    rfl

theorem hexEncode_injective : Function.Injective hexEncode := by
  intro bs
  induction bs with
  | nil =>
    intro cs h
    cases cs with
    | nil => rfl
    | cons c cs => cases h
  | cons b bs ih =>
    intro cs h
    cases cs with
    | nil => cases h
    | cons c cs =>
      obtain ⟨hhi, h⟩ := List.cons.inj h
      obtain ⟨hlo, h⟩ := List.cons.inj h
      rw [Uuid.nibbles_inj (Uuid.hexDigit_inj (Uuid.nibble_lt b).1 (Uuid.nibble_lt c).1 hhi)
        (Uuid.hexDigit_inj (Uuid.nibble_lt b).2 (Uuid.nibble_lt c).2 hlo), ih h]

theorem computeDigest_eq_iff {members members' : List CompositionMember} {policy policy' : Bytes} :
    computeDigest members policy = computeDigest members' policy' ↔
      fnv1a_64 fnvSeed (canonicalText members policy) =
        fnv1a_64 fnvSeed (canonicalText members' policy') := by
  rw [computeDigest, computeDigest, hexEncode_injective.eq_iff]
  constructor
  · intro h
    have := congrArg bytesWord h
    rwa [bytesWord_wordBytes, bytesWord_wordBytes] at this
  · exact congrArg wordBytes

theorem digest_binds (members members' : List CompositionMember) (policy policy' : Bytes) :
    (canonicalText members policy = canonicalText members' policy' ↔
      members = members' ∧ policy = policy') ∧
    (computeDigest members policy = computeDigest members' policy' ↔
      (members = members' ∧ policy = policy') ∨
        (canonicalText members policy ≠ canonicalText members' policy' ∧
          fnv1a_64 fnvSeed (canonicalText members policy) =
            fnv1a_64 fnvSeed (canonicalText members' policy'))) := by
  refine ⟨canonicalText_inj, ?_⟩
  rw [computeDigest_eq_iff, ← canonicalText_inj]
  constructor
  · intro hhash
    by_cases htext : canonicalText members policy = canonicalText members' policy'
    · exact .inl htext
    · exact .inr ⟨htext, hhash⟩
  · rintro (htext | ⟨-, hhash⟩)
    · rw [htext]
    · exact hhash

end CompositionBuilder

end AdapterFabric
