import AdapterFabric.Protocol

/-!
# AdapterFabric.Transport

Framing over TCP (`transport.hpp`, `transport.cpp`).

The receiving side of a socket is the byte stream still to come, and for each `::recv` call a number
that decides how many of the requested bytes that call delivers; the stream ends when it is empty.

* `recvFrame_frame`: a frame is received whole, however it is cut into chunks.
* `recvFrame_some`: what is received was framed in the stream, with its checksum.
* `single_byte_corruption_detected`: a byte altered in an encoded value or in a frame is noticed.
-/

namespace AdapterFabric

/-! ## Sending -/

/-- The bytes `send_frame` passes to `send_all`: length header, payload and checksum trailer. -/
def frame (payload : Bytes) : Bytes :=
  writeU32 (.ofNat payload.length) ++ payload ++ wordBytes (fnv1a_64 fnvSeed payload)

theorem frame_eq (P : Bytes) :
    frame P = writeU32 (.ofNat P.length) ++ (P ++ wordBytes (fnv1a_64 fnvSeed P)) := by
  rw [frame, List.append_assoc]

/-! ## Receiving -/

structure TcpSocket where
  valid : Bool := true
  stream : Bytes
  /-- how much of a request the next call, the one after it and so on deliver -/
  grants : Nat → Nat

namespace TcpSocket

/-- One `::recv` of at most `n` bytes: at least one of them while the stream lasts. -/
def recv (s : TcpSocket) (n : Nat) : Bytes × TcpSocket :=
  let got := min n (s.grants 0 + 1)
  (s.stream.take got, { s with stream := s.stream.drop got, grants := fun i => s.grants (i + 1) })

/-- The loop of `recv_exact`; `none` is the source's `false`. -/
def recvExact (s : TcpSocket) (n : Nat) : Option Bytes × TcpSocket :=
  if n = 0 then (some [], s)
  else
    if _ : (s.recv n).1 = [] then (none, (s.recv n).2)
    else
      match (s.recv n).2.recvExact (n - (s.recv n).1.length) with
      | (some bs, s') => (some ((s.recv n).1 ++ bs), s')
      | (none, s') => (none, s')
termination_by n
decreasing_by
  have := List.length_pos_iff.mpr ‹¬ (s.recv n).1 = []›
  omega

/-- The `len` of a length header. -/
def headerLen (hdr : Bytes) : UInt32 := ⟨LittleEndian.orIn 0 0#32 hdr⟩

/-- `recv_frame`: the payload, or `none` for `false`. -/
def recvFrame (s : TcpSocket) : Option Bytes × TcpSocket :=
  if ¬ s.valid then (none, s)
  else
    match s.recvExact 4 with
    | (none, s) => (none, s)
    | (some hdr, s) =>
      let len := headerLen hdr
      -- the hard cap
      if len.toNat > 64 * 1024 * 1024 then (none, s)
      else
        match if len.toNat > 0 then s.recvExact len.toNat else (some [], s) with
        | (none, s) => (none, s)
        | (some payload, s) =>
          match s.recvExact 8 with
          | (none, s) => (none, s)
          | (some ck, s) =>
            if bytesWord ck = fnv1a_64 fnvSeed payload then (some payload, s) else (none, s)

/-- However the calls cut the stream up, exactly the requested bytes are taken from its front. -/
theorem recvExact_of_le : ∀ (n : Nat) (s : TcpSocket), n ≤ s.stream.length →
    ∃ grants, s.recvExact n =
      (some (s.stream.take n), { s with stream := s.stream.drop n, grants := grants }) := by
  intro n
  induction n using Nat.strong_induction_on with
  | _ n ih =>
    intro s hn
    unfold recvExact
    by_cases h0 : n = 0
    · subst h0
      exact ⟨s.grants, by simp⟩
    · obtain ⟨got, hgot⟩ : ∃ got, got = min n (s.grants 0 + 1) := ⟨_, rfl⟩
      have hlen : (s.stream.take got).length = got := by rw [List.length_take]; omega
      have hne : s.stream.take got ≠ [] := List.length_pos_iff.mp (by omega)
      have hrecv : s.recv n = (s.stream.take got,
          { s with stream := s.stream.drop got, grants := fun i => s.grants (i + 1) }) := by
        rw [recv, ← hgot]
      obtain ⟨grants, hrest⟩ := ih (n - got) (by omega)
        { s with stream := s.stream.drop got, grants := fun i => s.grants (i + 1) }
        (by rw [List.length_drop]; omega)
      have hsum : got + (n - got) = n := by omega
      refine ⟨grants, ?_⟩
      simp only [if_neg h0, hrecv, dif_neg hne, hlen, hrest]
      rw [← List.take_add, List.drop_drop, hsum]

theorem recvExact_append (w t : Bytes) (valid : Bool) (grants : Nat → Nat) :
    ∃ grants', recvExact ⟨valid, w ++ t, grants⟩ w.length = (some w, ⟨valid, t, grants'⟩) := by
  obtain ⟨grants', h⟩ := recvExact_of_le w.length ⟨valid, w ++ t, grants⟩ (by simp)
  refine ⟨grants', ?_⟩
  rw [h]
  simp only [List.take_left, List.drop_left]

theorem recvExact_of_lt : ∀ (n : Nat) (s : TcpSocket), s.stream.length < n →
    (s.recvExact n).1 = none := by
  intro n
  induction n using Nat.strong_induction_on with
  | _ n ih =>
    intro s hn
    unfold recvExact
    rw [if_neg (by omega)]
    by_cases hend : (s.recv n).1 = []
    · rw [dif_pos hend]
    · rw [dif_neg hend]
      have hpos := List.length_pos_iff.mpr hend
      have hrest : (s.recv n).2.stream.length + (s.recv n).1.length = s.stream.length := by
        simp only [recv, List.length_drop, List.length_take]
        omega
      have hnone := ih (n - (s.recv n).1.length) (by omega) (s.recv n).2 (by omega)
      cases hr : (s.recv n).2.recvExact (n - (s.recv n).1.length) with
      | mk r s' =>
        rw [hr] at hnone
        cases hnone
        rfl

theorem recvExact_some {n : Nat} {s s' : TcpSocket} {w : Bytes}
    (h : s.recvExact n = (some w, s')) : w.length = n ∧ s.stream = w ++ s'.stream := by
  by_cases hn : n ≤ s.stream.length
  · obtain ⟨grants, he⟩ := recvExact_of_le n s hn
    rw [he] at h
    cases h
    exact ⟨List.length_take_of_le hn, (List.take_append_drop n s.stream).symm⟩
  · have hnone := recvExact_of_lt n s (Nat.not_le.mp hn)
    rw [h] at hnone
    cases hnone

theorem recvPayload_some {n : Nat} {s s' : TcpSocket} {w : Bytes}
    (h : (if n > 0 then s.recvExact n else (some [], s)) = (some w, s')) :
    w.length = n ∧ s.stream = w ++ s'.stream := by
  by_cases hpos : n > 0
  · rw [if_pos hpos] at h
    exact recvExact_some h
  · rw [if_neg hpos] at h
    cases h
    have hn : n = 0 := by omega
    exact ⟨hn.symm, rfl⟩

/-! ## What is received -/

/-- The bytes `H`, `P` and `T` are a length header, as many bytes as it says and a trailer. -/
structure IsFrame (H P T : Bytes) : Prop where
  header : H.length = 4
  length : (headerLen H).toNat = P.length
  trailer : T.length = 8

theorem IsFrame.recvFrame {H P T : Bytes} (h : IsFrame H P T) (t : Bytes) (grants : Nat → Nat) :
    ∃ s, TcpSocket.recvFrame ⟨true, H ++ (P ++ T) ++ t, grants⟩ =
      (if P.length ≤ 64 * 1024 * 1024 ∧ bytesWord T = fnv1a_64 fnvSeed P then some P else none,
        s) := by
  obtain ⟨g1, h1⟩ := recvExact_append H (P ++ T ++ t) true grants
  rw [h.header, ← List.append_assoc] at h1
  unfold TcpSocket.recvFrame
  simp only [not_true, if_false, h1, h.length]
  by_cases hcap : P.length ≤ 64 * 1024 * 1024
  · -- the payload is read even when it is empty, in which case there is nothing to read
    obtain ⟨g2, h2⟩ : ∃ g2, (if P.length > 0 then
        recvExact ⟨true, P ++ T ++ t, g1⟩ P.length else (some [], ⟨true, P ++ T ++ t, g1⟩)) =
          (some P, ⟨true, T ++ t, g2⟩) := by
      by_cases hp : P.length > 0
      · rw [if_pos hp, List.append_assoc]
        exact recvExact_append P (T ++ t) true g1
      · have hnil : P = [] := List.length_eq_zero_iff.mp (by omega)
        subst hnil
        exact ⟨g1, if_neg hp⟩
    obtain ⟨g3, h3⟩ := recvExact_append T t true g2
    rw [h.trailer] at h3
    refine ⟨⟨true, t, g3⟩, ?_⟩
    simp only [if_neg (Nat.not_lt.mpr hcap), h2, h3, hcap, true_and]
    split <;> rfl
  · refine ⟨⟨true, P ++ T ++ t, g1⟩, ?_⟩
    rw [if_pos (Nat.not_le.mp hcap), if_neg fun hif => hcap hif.1]

/-- Whatever `recv_frame` returns was framed in the stream, with its checksum. -/
theorem recvFrame_some {s s' : TcpSocket} {P : Bytes} (h : s.recvFrame = (some P, s')) :
    ∃ H T t, s.stream = H ++ (P ++ T) ++ t ∧ IsFrame H P T ∧ bytesWord T = fnv1a_64 fnvSeed P := by
  unfold TcpSocket.recvFrame at h
  by_cases hvalid : ¬ s.valid = true
  · rw [if_pos hvalid] at h
    cases h
  rw [if_neg hvalid] at h
  cases h1 : s.recvExact 4 with
  | mk r1 s1 =>
    cases r1 with
    | none => rw [h1] at h; cases h
    | some H =>
      simp only [h1] at h
      by_cases hcap : (headerLen H).toNat > 64 * 1024 * 1024
      · rw [if_pos hcap] at h
        cases h
      rw [if_neg hcap] at h
      obtain ⟨hH, hs⟩ := recvExact_some h1
      cases h2 : (if (headerLen H).toNat > 0 then s1.recvExact (headerLen H).toNat
          else (some [], s1)) with
      | mk r2 s2 =>
        rw [h2] at h
        cases r2 with
        | none => cases h
        | some payload =>
          obtain ⟨hP, hs1⟩ := recvPayload_some h2
          cases h3 : s2.recvExact 8 with
          | mk r3 s3 =>
            simp only [h3] at h
            cases r3 with
            | none => cases h
            | some T =>
              obtain ⟨hT, hs2⟩ := recvExact_some h3
              by_cases hck : bytesWord T = fnv1a_64 fnvSeed payload
              · simp only [if_pos hck] at h
                cases h
                refine ⟨H, T, s'.stream, ?_, ⟨hH, hP.symm, hT⟩, hck⟩
                rw [hs, hs1, hs2]
                simp only [List.append_assoc]
              · simp only [if_neg hck] at h
                cases h

theorem isFrame_frame {P : Bytes} (hP : P.length < 2 ^ 32) :
    IsFrame (writeU32 (.ofNat P.length)) P (wordBytes (fnv1a_64 fnvSeed P)) where
  header := length_writeU32 _
  length := by
    rw [headerLen, writeU32, LittleEndian.orIn_shiftOut (by decide) (by decide)]
    exact toNat_ofNat_length hP
  trailer := wordBytes_length _

theorem recvFrame_frame {P : Bytes} (hP : P.length ≤ 64 * 1024 * 1024) (t : Bytes)
    (grants : Nat → Nat) : (recvFrame ⟨true, frame P ++ t, grants⟩).1 = some P := by
  obtain ⟨s, h⟩ := (isFrame_frame (P := P) (by omega)).recvFrame t grants
  rw [frame_eq, h, bytesWord_wordBytes, if_pos ⟨hP, rfl⟩]

theorem IsFrame.recvFrame_set {H P T : Bytes} (h : IsFrame H P T)
    (hck : bytesWord T = fnv1a_64 fnvSeed P) {i : Nat} (hi : i < (H ++ (P ++ T)).length)
    (hheader : 4 ≤ i) {v : UInt8} (hv : v ≠ (H ++ (P ++ T))[i]) (t : Bytes) (grants : Nat → Nat) :
    (TcpSocket.recvFrame ⟨true, (H ++ (P ++ T)).set i v ++ t, grants⟩).1 = none := by
  have hj : i - 4 < (P ++ T).length := by
    rw [List.length_append, h.header] at hi
    omega
  have hv' : v ≠ (P ++ T)[i - 4] := by
    rw [List.getElem_append_right (by rw [h.header]; omega)] at hv
    simpa only [h.header] using hv
  obtain ⟨P', T', hset, hP', hT', hne⟩ := checksum_set_ne h.trailer hck.symm hj hv'
  have h' : IsFrame H P' T' := ⟨h.header, h.length.trans hP'.symm, hT'⟩
  obtain ⟨s, hs⟩ := h'.recvFrame t grants
  rw [List.set_append_right _ _ (by rw [h.header]; omega), h.header, hset, hs,
    if_neg fun hif => hne hif.2.symm]

end TcpSocket

/-! ## Corruption -/

/-- Changing any one byte of an accepted string is reported as a checksum mismatch. -/
def DetectsByte {α : Type} (decoder : Bytes → Except Error α) : Prop :=
  ∀ (b : Bytes) (a : α), decoder b = .ok a → ∀ (i : Nat) (hi : i < b.length) (v : UInt8), v ≠ b[i] →
    decoder (b.set i v) = .error ⟨.checksumMismatch, ascii "checksum mismatch"⟩

theorem decode_detectsByte {α : Type} (body : BinReader.Read α) : DetectsByte (decode body) :=
  fun _ _ h _ hi _ hv => decode_set h hi hv

theorem recvFrame_sent_set {P : Bytes} (hP : P.length < 2 ^ 32) {i : Nat}
    (hi : i < (frame P).length) (hheader : 4 ≤ i) {v : UInt8} (hv : v ≠ (frame P)[i]) (t : Bytes)
    (grants : Nat → Nat) :
    (TcpSocket.recvFrame ⟨true, (frame P).set i v ++ t, grants⟩).1 = none := by
  simp only [frame_eq] at hi hv ⊢
  exact (TcpSocket.isFrame_frame hP).recvFrame_set (bytesWord_wordBytes _) hi hheader hv t grants

theorem recvFrame_received_set {stream P : Bytes} {grants : Nat → Nat} {s' : TcpSocket}
    (h : TcpSocket.recvFrame ⟨true, stream, grants⟩ = (some P, s')) {i : Nat}
    (hi : i < stream.length) (hheader : 4 ≤ i) (hframe : i < 4 + P.length + 8) {v : UInt8}
    (hv : v ≠ stream[i]) (grants' : Nat → Nat) :
    (TcpSocket.recvFrame ⟨true, stream.set i v, grants'⟩).1 = none := by
  obtain ⟨H, T, t, hstream, hf, hck⟩ := TcpSocket.recvFrame_some h
  simp only at hstream
  subst hstream
  have hlen : i < (H ++ (P ++ T)).length := by
    rw [List.length_append, List.length_append, hf.header, hf.trailer]
    omega
  rw [List.getElem_append_left hlen] at hv
  rw [List.set_append_left _ _ hlen]
  exact hf.recvFrame_set hck hlen hheader hv t grants'

/-- One altered byte is noticed: in an encoded value by its decoder, and behind the header of a
frame by `recv_frame`, for every payload whose length a header can hold and for every frame that
would have been received. -/
theorem single_byte_corruption_detected :
    DetectsByte decodeMessage ∧ DetectsByte decodeFence ∧ DetectsByte deserializeAdapter ∧
      DetectsByte deserializeSnapshot ∧
      (∀ P : Bytes, P.length < 2 ^ 32 → ∀ (i : Nat) (hi : i < (frame P).length), 4 ≤ i →
        ∀ v : UInt8, v ≠ (frame P)[i] → ∀ (t : Bytes) (grants : Nat → Nat),
          (TcpSocket.recvFrame ⟨true, (frame P).set i v ++ t, grants⟩).1 = none) ∧
      ∀ (stream P : Bytes) (grants : Nat → Nat) (s' : TcpSocket),
        TcpSocket.recvFrame ⟨true, stream, grants⟩ = (some P, s') →
          ∀ (i : Nat) (hi : i < stream.length), 4 ≤ i → i < 4 + P.length + 8 →
            ∀ v : UInt8, v ≠ stream[i] → ∀ grants' : Nat → Nat,
              (TcpSocket.recvFrame ⟨true, stream.set i v, grants'⟩).1 = none :=
  ⟨decode_detectsByte _, decode_detectsByte _, decode_detectsByte _, decode_detectsByte _,
    fun _ hP _ hi hheader _ hv => recvFrame_sent_set hP hi hheader hv,
    fun _ _ _ _ h _ hi hheader hframe _ hv => recvFrame_received_set h hi hheader hframe hv⟩

theorem single_byte_corruption_detected_sample :
    decodeMessage ((encodeMessage {}).set 0 1) =
        .error ⟨.checksumMismatch, ascii "checksum mismatch"⟩ ∧
      (TcpSocket.recvFrame ⟨true, (frame [1]).set 4 2 ++ [], id⟩).1 = none := by
  obtain ⟨hmessage, _, _, _, hframe, _⟩ := single_byte_corruption_detected
  constructor
  · exact hmessage (encodeMessage {}) {} (by decide +kernel) 0 (by decide +kernel) 1
      (by decide +kernel)
  · exact hframe [1] (by decide) 4 (by decide +kernel) (by decide) 2 (by decide +kernel) [] id

end AdapterFabric
