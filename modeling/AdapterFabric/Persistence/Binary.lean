import AdapterFabric.Checksum
import AdapterFabric.Error
import AdapterFabric.Lib.Cursor

/-!
# AdapterFabric.Persistence.Binary

The binary writer and reader (`BinWriter` and `BinReader` of `persistence.hpp`, `persistence.cpp`).

A writer is the byte string it appends. A reader is a `Cursor.Reader` over the payload, the bytes in
front of the checksum trailer.

* `decode_ok_iff`: a strict decoder accepts exactly the payloads its body reads to the end, each
  followed by its own checksum.
* `decode_set`: changing one byte of an accepted string is a checksum mismatch.
-/

namespace AdapterFabric

open Cursor

/-! ## BinWriter -/

def writeU8 (v : UInt8) : Bytes := [v]

def writeU32 (v : UInt32) : Bytes := LittleEndian.shiftOut 4 v.toBitVec

@[simp] theorem length_writeU32 (v : UInt32) : (writeU32 v).length = 4 :=
  LittleEndian.shiftOut_length 4 _

def writeU64 (v : UInt64) : Bytes := wordBytes v

def writeString (s : Bytes) : Bytes := writeU32 (.ofNat s.length) ++ s

def writeUuid (u : Uuid) : Bytes := u.bytes

def writeId {tag : IdTag} (i : Id tag) : Bytes := writeUuid i.uuid

def writeGen {tag : GenTag} (g : Generation tag) : Bytes := writeU64 g.value

def writeBool (b : Bool) : Bytes := writeU8 (if b then 1 else 0)

/-- A count and then every element, as each list of the formats is written. -/
def writeList {α : Type} (write : α → Bytes) (as : List α) : Bytes :=
  writeU32 (.ofNat as.length) ++ as.flatMap write

/-- `finish`: the payload followed by its checksum. -/
def finish (payload : Bytes) : Bytes := payload ++ wordBytes (fnv1a_64 fnvSeed payload)

/-! ## BinReader -/

/-- Subtraction of `size_t`, which wraps. -/
def sizeSub (a b : Nat) : Nat := if b ≤ a then a - b else a + 2 ^ 64 - b

structure BinReader where
  data : Bytes
  pos : Nat
  payloadEnd : Nat

namespace BinReader

abbrev Read (α : Type) := Cursor.Reader BinReader Error α

/-- The constructor, which checks the checksum of everything in front of it. -/
def «open» (data : Bytes) : Except Error BinReader :=
  if data.length < 8 then .error ⟨.malformed, ascii "payload too small"⟩
  else
    let payloadEnd := data.length - 8
    let stored := bytesWord ((data.drop payloadEnd).take 8)
    let computed := fnv1a_64 fnvSeed (data.take payloadEnd)
    if computed ≠ stored then .error ⟨.checksumMismatch, ascii "checksum mismatch"⟩
    else .ok ⟨data, 0, payloadEnd⟩

def size (r : BinReader) : Nat := r.data.length

def check (n : Nat) : Read Unit := do
  let r ← get
  throwIf (r.pos > r.payloadEnd ∨ n > sizeSub r.payloadEnd r.pos)
    ⟨.truncation, ascii "read past payload"⟩

/-- The octets `data_[pos_ .. pos_ + n)`, and `pos_ += n`. -/
def advance (n : Nat) : Read Bytes := do
  let r ← get
  set { r with pos := r.pos + n }
  pure ((r.data.drop r.pos).take n)

def bytes (n : Nat) : Read Bytes := do
  check n
  advance n

def u8 : Read UInt8 := do
  let bs ← bytes 1
  pure (bs.headD 0)

def u32 : Read UInt32 := do
  let bs ← bytes 4
  pure ⟨LittleEndian.orIn 0 0#32 bs⟩

def u64 : Read UInt64 := do
  let bs ← bytes 8
  pure (bytesWord bs)

/-- The part of `string` after its length prefix. -/
def stringBody (n : Nat) : Read Bytes := do
  let r ← get
  throwIf (n > sizeSub r.payloadEnd r.pos)
    ⟨.malformed, ascii "string length exceeds payload"⟩
  advance n

def string : Read Bytes := do
  let n ← u32
  stringBody n.toNat

def uuid : Read Uuid := do
  let bs ← bytes 16
  pure (.ofBytes bs)

def id {tag : IdTag} : Read (Id tag) := do
  let u ← uuid
  pure ⟨u⟩

def gen {tag : GenTag} : Read (Generation tag) := do
  let v ← u64
  pure ⟨v⟩

def bool : Read Bool := do
  let b ← u8
  pure (b != 0)

/-- A count, refused when it exceeds `limit`, and then that many elements. -/
def list {α : Type} (limit : Nat) (tooMany : String) (read : Read α) : Read (List α) := do
  let n ← u32
  throwIf (n.toNat > limit) ⟨.malformed, ascii tooMany⟩
  times read n.toNat

/-- The same for elements whose ids must be distinct. -/
def listFresh {α : Type} (limit : Nat) (tooMany : String) (key : α → Bytes) (dup : String)
    (read : Read α) : Read (List α) := do
  let n ← u32
  throwIf (n.toNat > limit) ⟨.malformed, ascii tooMany⟩
  timesFresh key ⟨.duplicate, ascii dup⟩ read n.toNat []

def expectEnd (r : BinReader) (expected : Nat) : Except Error Unit :=
  if r.pos ≠ expected then .error ⟨.trailingGarbage, ascii "trailing garbage in payload"⟩
  else .ok ()

/-! ### The reader as a cursor over its payload -/

instance : Tape BinReader UInt8 where
  Valid r := r.pos ≤ r.payloadEnd ∧ r.payloadEnd + 8 = r.data.length
  rest r := (r.data.take r.payloadEnd).drop r.pos
  skip n r := { r with pos := r.pos + n }
  valid_skip := by
    rintro r n ⟨hpos, hend⟩ hn
    simp only [List.length_drop, List.length_take] at hn
    exact ⟨by show r.pos + n ≤ r.payloadEnd; omega, hend⟩
  rest_skip := by
    intro r n _ _
    rw [List.drop_drop]
  skip_zero _ := rfl
  skip_skip m n r := by simp only [Nat.add_assoc]
  exists_rest l := ⟨⟨l ++ List.replicate 8 0, 0, l.length⟩, ⟨Nat.zero_le _, by simp⟩, by simp⟩

open Tape

theorem rest_length {r : BinReader} (hv : Valid r) :
    (rest r).length = r.payloadEnd - r.pos := by
  obtain ⟨_, hend⟩ := hv
  show ((r.data.take r.payloadEnd).drop r.pos).length = _
  rw [List.length_drop, List.length_take]
  omega

/-- Inside the payload, the octets read are those that lie ahead. -/
theorem advance_run {r : BinReader} (hv : Valid r) {n : Nat} (hn : n ≤ (rest r).length) :
    (advance n).run r = .ok ((rest r).take n, skip n r) := by
  have hlen := rest_length hv
  obtain ⟨hpos, _⟩ := hv
  have htake : (rest r).take n = (r.data.drop r.pos).take n := by
    show ((r.data.take r.payloadEnd).drop r.pos).take n = _
    rw [List.drop_take, List.take_take, Nat.min_eq_left (by omega)]
  rw [htake]; rfl

theorem guard_run (q : BinReader → Prop) [DecidablePred q] (e : Error) (n : Nat) (r : BinReader) :
    (do let r ← get; throwIf (q r) e; advance n : Read Bytes).run r =
      if q r then .error e else (advance n).run r := by
  show (if q r then throw e else pure PUnit.unit : Read PUnit).run r >>= _ = _
  split <;> rfl

/-- A length check in front of `advance`, in either of the forms the source uses. -/
theorem fixed_of_guard {q : BinReader → Prop} [DecidablePred q] {e : Error} {n : Nat}
    (hq : ∀ r, Valid r → (q r ↔ (rest r).length < n)) :
    Fixed (do let r ← get; throwIf (q r) e; advance n : Read Bytes) n fun w => w := by
  intro r hv
  rw [guard_run]
  constructor
  · intro hn
    rw [if_neg fun h => Nat.not_lt.mpr hn ((hq r hv).mp h), advance_run hv hn]
  · intro hn
    exact ⟨e, if_pos ((hq r hv).mpr hn)⟩

theorem bytes_fixed (n : Nat) : Fixed (bytes n) n fun w => w := by
  refine fixed_of_guard (e := ⟨.truncation, ascii "read past payload"⟩)
    (q := fun r => r.pos > r.payloadEnd ∨ n > sizeSub r.payloadEnd r.pos) ?_
  intro r hv
  have hlen := rest_length hv
  obtain ⟨hpos, _⟩ := hv
  rw [hlen, sizeSub, if_pos hpos]
  omega

theorem stringBody_fixed (n : Nat) : Fixed (stringBody n) n fun w => w := by
  refine fixed_of_guard (e := ⟨.malformed, ascii "string length exceeds payload"⟩)
    (q := fun r => n > sizeSub r.payloadEnd r.pos) ?_
  intro r hv
  have hlen := rest_length hv
  obtain ⟨hpos, _⟩ := hv
  rw [hlen, sizeSub, if_pos hpos]

theorem u8_fixed : Fixed u8 1 fun w => w.headD 0 := (bytes_fixed 1).map _

theorem u32_fixed : Fixed u32 4 fun w => ⟨LittleEndian.orIn 0 0#32 w⟩ := (bytes_fixed 4).map _

theorem u64_fixed : Fixed u64 8 bytesWord := (bytes_fixed 8).map _

theorem uuid_fixed : Fixed uuid 16 Uuid.ofBytes := (bytes_fixed 16).map _

theorem id_fixed {tag : IdTag} : Fixed (id : Read (Id tag)) 16 fun w => ⟨Uuid.ofBytes w⟩ :=
  uuid_fixed.map _

theorem gen_fixed {tag : GenTag} : Fixed (gen : Read (Generation tag)) 8 fun w => ⟨bytesWord w⟩ :=
  u64_fixed.map _

theorem bool_fixed : Fixed bool 1 fun w => w.headD 0 != 0 := u8_fixed.map _

end BinReader

/-! ### What the readers read -/

theorem reads_u8 (v : UInt8) : Reads BinReader.u8 (writeU8 v) v := BinReader.u8_fixed.reads rfl

theorem reads_u32 (v : UInt32) : Reads BinReader.u32 (writeU32 v) v := by
  have h := BinReader.u32_fixed.reads (w := writeU32 v) (length_writeU32 v)
  rwa [show (⟨LittleEndian.orIn 0 0#32 (writeU32 v)⟩ : UInt32) = v from
    congrArg UInt32.ofBitVec (LittleEndian.orIn_shiftOut (by decide) (by decide) v.toBitVec)] at h

theorem reads_u64 (v : UInt64) : Reads BinReader.u64 (writeU64 v) v := by
  have h := BinReader.u64_fixed.reads (w := writeU64 v) (wordBytes_length v)
  rwa [writeU64, bytesWord_wordBytes] at h

theorem reads_uuid (u : Uuid) : Reads BinReader.uuid (writeUuid u) u := by
  have h := BinReader.uuid_fixed.reads (w := writeUuid u) u.size_eq
  rwa [show Uuid.ofBytes (writeUuid u) = u from Uuid.ext (Uuid.ofBytes_bytes u.size_eq)] at h

theorem reads_id {tag : IdTag} (i : Id tag) : Reads BinReader.id (writeId i) i :=
  (reads_uuid i.uuid).map (.pure _)

theorem reads_gen {tag : GenTag} (g : Generation tag) : Reads BinReader.gen (writeGen g) g :=
  (reads_u64 g.value).map (.pure _)

theorem reads_bool (b : Bool) : Reads BinReader.bool (writeBool b) b := by
  cases b <;> exact BinReader.bool_fixed.reads rfl

theorem toNat_ofNat_length {n : Nat} (h : n < 2 ^ 32) : (UInt32.ofNat n).toNat = n :=
  UInt32.toNat_ofNat_of_lt' h

theorem reads_string {s : Bytes} (h : s.length < 2 ^ 32) :
    Reads BinReader.string (writeString s) s := by
  refine (reads_u32 _).bind ?_
  rw [toNat_ofNat_length h]
  exact (BinReader.stringBody_fixed _).reads rfl

section Lists

variable {α : Type} {read : BinReader.Read α} {write : α → Bytes} {as : List α} {limit : Nat}

theorem reads_list (tooMany : String) (hlen : as.length ≤ limit) (hlimit : limit < 2 ^ 32)
    (h : ∀ a ∈ as, Reads read (write a) a) :
    Reads (BinReader.list limit tooMany read) (writeList write as) as := by
  refine (reads_u32 _).bind ?_
  rw [toNat_ofNat_length (Nat.lt_of_le_of_lt hlen hlimit)]
  refine (Reads.throwIf (Nat.not_lt.mpr hlen)).bind_nil ?_
  exact Reads.times h

theorem reads_listFresh {key : α → Bytes} (tooMany dup : String) (hlen : as.length ≤ limit)
    (hlimit : limit < 2 ^ 32) (h : ∀ a ∈ as, Reads read (write a) a) (hnd : (as.map key).Nodup) :
    Reads (BinReader.listFresh limit tooMany key dup read) (writeList write as) as := by
  refine (reads_u32 _).bind ?_
  rw [toNat_ofNat_length (Nat.lt_of_le_of_lt hlen hlimit)]
  refine (Reads.throwIf (Nat.not_lt.mpr hlen)).bind_nil ?_
  exact Reads.timesFresh h hnd (by simp)

end Lists

/-! ### What the readers accept -/

theorem accepts_u8 : Accepts BinReader.u8 fun _ => True :=
  BinReader.u8_fixed.accepts.mono fun _ _ => trivial

theorem accepts_u32 : Accepts BinReader.u32 fun _ => True :=
  BinReader.u32_fixed.accepts.mono fun _ _ => trivial

theorem accepts_u64 : Accepts BinReader.u64 fun _ => True :=
  BinReader.u64_fixed.accepts.mono fun _ _ => trivial

theorem accepts_id {tag : IdTag} : Accepts (BinReader.id : BinReader.Read (Id tag)) fun _ => True :=
  BinReader.id_fixed.accepts.mono fun _ _ => trivial

theorem accepts_gen {tag : GenTag} :
    Accepts (BinReader.gen : BinReader.Read (Generation tag)) fun _ => True :=
  BinReader.gen_fixed.accepts.mono fun _ _ => trivial

theorem accepts_bool : Accepts BinReader.bool fun _ => True :=
  BinReader.bool_fixed.accepts.mono fun _ _ => trivial

theorem accepts_string : Accepts BinReader.string fun s => s.length < 2 ^ 32 := by
  refine accepts_u32.bind fun n _ => (BinReader.stringBody_fixed n.toNat).accepts.mono ?_
  rintro s ⟨w, hw, rfl⟩
  rw [hw]
  exact n.toNat_lt

section Lists

variable {α : Type} {read : BinReader.Read α} {Q : α → Prop} {limit : Nat} {tooMany : String}

theorem accepts_list (h : Accepts read Q) :
    Accepts (BinReader.list limit tooMany read) fun as => as.length ≤ limit ∧ ∀ a ∈ as, Q a := by
  refine accepts_u32.bind fun n _ => Accepts.throwIf.bind fun _ hle => ?_
  refine (Accepts.times h n.toNat).mono fun as has => ⟨?_, has.2⟩
  rw [has.1]
  exact Nat.not_lt.mp hle

theorem accepts_listFresh {key : α → Bytes} {dup : String} (h : Accepts read Q) :
    Accepts (BinReader.listFresh limit tooMany key dup read) fun as =>
      as.length ≤ limit ∧ (∀ a ∈ as, Q a) ∧ (as.map key).Nodup := by
  refine accepts_u32.bind fun n _ => Accepts.throwIf.bind fun _ hle => ?_
  refine (Accepts.timesFresh h n.toNat []).mono fun as has => ⟨?_, has.2.1, has.2.2.1⟩
  rw [has.1]
  exact Nat.not_lt.mp hle

end Lists

/-! ## Strict decoders -/

/-- A strict decoder: the checksum, the body, and nothing after it. -/
def decode {α : Type} (body : BinReader.Read α) (bytes : Bytes) : Except Error α := do
  let r ← BinReader.open bytes
  let (a, r) ← body.run r
  r.expectEnd (sizeSub r.size 8)
  pure a

theorem finish_inj {P P' : Bytes} (h : finish P = finish P') : P = P' :=
  (List.append_inj' h (by simp)).1

/-- Whether a string is opened depends on its last eight bytes and what stands in front of them. -/
theorem open_append (P : Bytes) {T : Bytes} (hT : T.length = 8) :
    BinReader.open (P ++ T) =
      if fnv1a_64 fnvSeed P ≠ bytesWord T then
        .error ⟨.checksumMismatch, ascii "checksum mismatch"⟩
      else .ok ⟨P ++ T, 0, P.length⟩ := by
  have hlen : (P ++ T).length = P.length + 8 := by rw [List.length_append, hT]
  have hend : (P ++ T).length - 8 = P.length := by omega
  have htrailer : ((P ++ T).drop P.length).take 8 = T := by
    rw [List.drop_left, List.take_of_length_le (by omega)]
  unfold BinReader.open
  rw [if_neg (by omega)]
  simp only [hend, htrailer, List.take_left]

theorem open_finish (P : Bytes) : BinReader.open (finish P) = .ok ⟨finish P, 0, P.length⟩ := by
  rw [finish, open_append P (wordBytes_length _), bytesWord_wordBytes, if_neg (by simp)]

theorem open_inv {b : Bytes} {r : BinReader} (h : BinReader.open b = .ok r) :
    ∃ P, b = finish P ∧ r = ⟨b, 0, P.length⟩ := by
  by_cases hlen : b.length < 8
  · rw [BinReader.open, if_pos hlen] at h
    cases h
  · have hT : (b.drop (b.length - 8)).length = 8 := by rw [List.length_drop]; omega
    have hb : b = b.take (b.length - 8) ++ b.drop (b.length - 8) :=
      (List.take_append_drop _ b).symm
    rw [hb, open_append _ hT] at h
    split at h
    · cases h
    · rename_i hsum
      cases h
      refine ⟨b.take (b.length - 8), ?_, by rw [← hb]⟩
      rw [finish, Decidable.not_not.mp hsum, wordBytes_bytesWord hT, ← hb]

section Decoder

variable {α : Type} {body : BinReader.Read α} {Q : α → Prop}

theorem decode_of_open_error {b : Bytes} {e : Error} (h : BinReader.open b = .error e) :
    decode body b = .error e := by
  rw [decode, h]; rfl

theorem start_valid (P : Bytes) : Tape.Valid (⟨finish P, 0, P.length⟩ : BinReader) :=
  ⟨Nat.zero_le _, by simp [finish]⟩

theorem start_rest (P : Bytes) : Tape.rest (⟨finish P, 0, P.length⟩ : BinReader) = P := by
  show ((finish P).take P.length).drop 0 = P
  rw [finish, List.take_left, List.drop_zero]

theorem expectEnd_start (P : Bytes) (n : Nat) :
    (⟨finish P, n, P.length⟩ : BinReader).expectEnd
        (sizeSub (BinReader.size ⟨finish P, n, P.length⟩) 8) = .ok () ↔ n = P.length := by
  have hsize : sizeSub (BinReader.size ⟨finish P, n, P.length⟩) 8 = P.length := by
    simp [BinReader.size, finish, sizeSub]
  rw [hsize]
  unfold BinReader.expectEnd
  by_cases hn : n = P.length
  · simp [hn]
  · simp [hn]

theorem decode_of_reads {P : Bytes} {a : α} (h : Reads body P a) :
    decode body (finish P) = .ok a := by
  have hrun := h _ [] (start_valid P) (by rw [start_rest, List.append_nil])
  refine bind_eq_ok.mpr ⟨_, open_finish P, bind_eq_ok.mpr ⟨_, hrun, bind_eq_ok.mpr ⟨(), ?_, rfl⟩⟩⟩
  exact (expectEnd_start P _).mpr (Nat.zero_add _)

/-- What the body takes off an accepted string is all of its payload. -/
theorem decode_consumes {R : Bytes → α → Prop} (hbody : Consumes body R) {b : Bytes} {a : α}
    (h : decode body b = .ok a) : ∃ P, b = finish P ∧ R P a := by
  obtain ⟨r, hopen, h⟩ := bind_eq_ok.mp h
  obtain ⟨⟨a', r'⟩, hrun, h⟩ := bind_eq_ok.mp h
  obtain ⟨_, hend, h⟩ := bind_eq_ok.mp h
  cases h
  obtain ⟨P, rfl, rfl⟩ := open_inv hopen
  obtain ⟨w, t, hrest, rfl, hw⟩ := hbody _ _ _ (start_valid P) hrun
  refine ⟨P, rfl, ?_⟩
  -- the body stopped at the end of the payload, so it has read all of it
  have hlen : 0 + w.length = P.length := (expectEnd_start P _).mp hend
  rw [start_rest] at hrest
  have ht : t = [] := by
    apply List.length_eq_zero_iff.mp
    have := congrArg List.length hrest
    rw [List.length_append] at this
    omega
  rw [hrest, ht, List.append_nil]
  exact hw

theorem decode_inv (hacc : Accepts body Q) {b : Bytes} {a : α} (h : decode body b = .ok a) :
    Q a ∧ ∃ P, b = finish P ∧ Reads body P a := by
  obtain ⟨P, hb, hQ, hP⟩ := decode_consumes hacc.consumes h
  exact ⟨hQ, P, hb, hP⟩

theorem decode_ok_iff (hacc : Accepts body Q) {b : Bytes} {a : α} :
    decode body b = .ok a ↔ ∃ P, b = finish P ∧ Reads body P a := by
  constructor
  · exact fun h => (decode_inv hacc h).2
  · rintro ⟨P, rfl, h⟩
    exact decode_of_reads h

/-- Whatever is accepted ends in the checksum of what stands in front of it, so no string that
differs from an accepted one in one byte is opened. -/
theorem decode_set {b : Bytes} {a : α} (h : decode body b = .ok a) {i : Nat} (hi : i < b.length)
    {v : UInt8} (hv : v ≠ b[i]) :
    decode body (b.set i v) = .error ⟨.checksumMismatch, ascii "checksum mismatch"⟩ := by
  obtain ⟨r, hopen, _⟩ := bind_eq_ok.mp h
  obtain ⟨P, rfl, _⟩ := open_inv hopen
  obtain ⟨P', T', hset, _, hT', hne⟩ :=
    checksum_set_ne (wordBytes_length _) (bytesWord_wordBytes _).symm hi hv
  apply decode_of_open_error
  rw [finish, hset, open_append P' hT', if_pos hne]

end Decoder

end AdapterFabric
