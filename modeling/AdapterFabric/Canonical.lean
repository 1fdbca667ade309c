import AdapterFabric.Lib.Layout
import AdapterFabric.Protocol

/-!
# AdapterFabric.Canonical

Encodings as the decoders see them (`persistence.cpp`, `protocol.cpp`).

The strict decoders read every field of a value back as it was written, except truth values: any
byte but 0 stands for `true`, and only 1 is written for it.

* `wire_codec`: messages and fences survive the wire, and `decode_fence` accepts encoded fences
  only.
* `canonical_iff`: an accepted string is the encoding of what it decodes to exactly when its truth
  values are written as 0 or 1.
-/

namespace AdapterFabric

open Cursor

/-! ## Fields -/

/-- The prefix of strings and lists. -/
def lengthPrefix : Prefix UInt8 where
  width := 4
  count w := (⟨LittleEndian.orIn 0 0#32 w⟩ : UInt32).toNat

/-- The bytes that `BinWriter` writes for a truth value. -/
def IsBit (x : UInt8) : Prop := x = 0 ∨ x = 1

abbrev Codes {α : Type} (read : BinReader.Read α) (write : α → Bytes) (l : Layout) : Prop :=
  Cursor.Codes lengthPrefix IsBit read write l

theorem count_writeU32 (v : UInt32) : lengthPrefix.count (writeU32 v) = v.toNat :=
  congrArg BitVec.toNat (LittleEndian.orIn_shiftOut (by decide) (by decide) v.toBitVec)

theorem consumes_u32 : Consumes BinReader.u32 fun w n => w = writeU32 n := by
  refine BinReader.u32_fixed.consumes.mono ?_
  rintro w n ⟨hlen, rfl⟩
  have hback : LittleEndian.shiftOut w.length (LittleEndian.orIn 0 0#32 w) = w :=
    LittleEndian.shiftOut_orIn (by omega) (by omega)
  rw [hlen] at hback
  exact hback.symm

theorem codes_u8 : Codes BinReader.u8 writeU8 (.skip 1) := by
  refine BinReader.u8_fixed.consumes.mono ?_
  rintro w a ⟨hlen, rfl⟩
  obtain ⟨x, rfl⟩ := List.length_eq_one_iff.mp hlen
  exact .skip rfl

theorem codes_u32 : Codes BinReader.u32 writeU32 (.skip 4) := by
  refine consumes_u32.mono ?_
  rintro w n rfl
  exact .skip (length_writeU32 n)

theorem codes_u64 : Codes BinReader.u64 writeU64 (.skip 8) := by
  refine BinReader.u64_fixed.consumes.mono ?_
  rintro w a ⟨hlen, rfl⟩
  rw [writeU64, wordBytes_bytesWord hlen]
  exact .skip hlen

theorem codes_uuid : Codes BinReader.uuid writeUuid (.skip 16) := by
  refine BinReader.uuid_fixed.consumes.mono ?_
  rintro w a ⟨hlen, rfl⟩
  rw [writeUuid, Uuid.ofBytes_bytes hlen]
  exact .skip hlen

theorem codes_id {tag : IdTag} :
    Codes (BinReader.id : BinReader.Read (Id tag)) writeId (.skip 16) :=
  codes_uuid.map fun _ => rfl

theorem codes_gen {tag : GenTag} :
    Codes (BinReader.gen : BinReader.Read (Generation tag)) writeGen (.skip 8) :=
  codes_u64.map fun _ => rfl

/-- The one field whose reader takes several encodings of a value. -/
theorem codes_bool : Codes BinReader.bool writeBool .flag := by
  refine BinReader.bool_fixed.consumes.mono ?_
  rintro w a ⟨hlen, rfl⟩
  obtain ⟨x, rfl⟩ := List.length_eq_one_iff.mp hlen
  refine Coded.flag ?_
  simp only [List.headD_cons, IsBit, bne_iff_ne, ne_eq, ite_not]
  by_cases hx : x = 0 <;> simp [hx]

theorem codes_string : Codes BinReader.string writeString .block := by
  refine consumes_u32.bind fun h n hh => (BinReader.stringBody_fixed n.toNat).consumes.mono ?_
  rintro w s ⟨hlen, rfl⟩
  subst hh
  have hn : UInt32.ofNat s.length = n := by rw [hlen, UInt32.ofNat_toNat]
  rw [writeString, hn]
  exact Coded.block (length_writeU32 n) (by rw [hlen, count_writeU32])

section Lists

variable {α : Type} {read : BinReader.Read α} {write : α → Bytes} {l : Layout} {limit : Nat}
  {tooMany : String}

theorem coded_writeList {as : List α} {n : UInt32} (hlen : as.length = n.toNat) {ws : List Bytes}
    (h : List.Forall₂ (fun w a => Coded lengthPrefix IsBit l w (write a)) ws as) :
    Coded lengthPrefix IsBit (.list l) (writeU32 n ++ ws.flatten) (writeList write as) := by
  have hn : UInt32.ofNat as.length = n := by rw [hlen, UInt32.ofNat_toNat]
  rw [writeList, hn, List.flatMap_def]
  refine Coded.list (length_writeU32 n) ?_ (Coded.forall₂ h)
  rw [h.length_eq, hlen, count_writeU32]

theorem codes_list (h : Codes read write l) :
    Codes (BinReader.list limit tooMany read) (writeList write) (.list l) := by
  refine consumes_u32.bind fun p n hp => Consumes.check fun _ => (h.times n.toNat).mono ?_
  rintro _ as ⟨hlen, ws, rfl, hws⟩
  subst hp
  exact coded_writeList hlen hws

theorem codes_listFresh {key : α → Bytes} {dup : String} (h : Codes read write l) :
    Codes (BinReader.listFresh limit tooMany key dup read) (writeList write) (.list l) := by
  refine consumes_u32.bind fun p n hp => Consumes.check fun _ => (h.timesFresh n.toNat []).mono ?_
  rintro _ as ⟨hlen, ws, rfl, hws⟩
  subst hp
  exact coded_writeList hlen hws

end Lists

theorem codes_enum {ε : Type} {mk : UInt8 → ε} {byte : ε → UInt8} (hbyte : ∀ b, byte (mk b) = b)
    {isOk : ε → Bool} {what : String} :
    Codes (BinReader.enum mk isOk what) (fun e => writeU8 (byte e)) (.skip 1) := by
  refine Consumes.bind codes_u8 fun w b hw => Consumes.check fun _ => .pure ?_
  rw [List.append_nil]
  dsimp only
  rwa [hbyte]

theorem codes_someGen {tag : GenTag} {what : String} :
    Codes (BinReader.someGen what : BinReader.Read (Generation tag)) writeGen (.skip 8) := by
  refine Consumes.bind codes_gen fun w g hw => Consumes.check fun _ => .pure ?_
  rwa [List.append_nil]

/-! ## Adapters -/

def targetLayout : Layout := .pair .block <| .pair (.skip 4) <| .pair (.skip 4) (.list (.skip 4))

def dependencyLayout : Layout := .pair .block <| .pair .block .block

def capabilityLayout : Layout := .pair .block <| .pair .block .flag

def constraintLayout : Layout := .pair .block .block

def provenanceLayout : Layout :=
  .pair .block <| .pair .block <| .pair .block <| .pair .block .block

def descLayout : Layout :=
  .pair (.skip 16) <| .pair (.skip 16) <| .pair (.skip 16) <| .pair .block <| .pair (.skip 1) <|
  .pair .block <| .pair (.skip 16) <| .pair (.skip 16) <| .pair (.list targetLayout) <|
  .pair (.skip 4) <| .pair (.skip 1) <| .pair (.skip 8) <| .pair (.skip 8) <| .pair (.skip 8) <|
  .pair .block <| .pair (.skip 4) <| .pair (.list dependencyLayout) <|
  .pair (.list capabilityLayout) <| .pair (.list constraintLayout) <| .pair provenanceLayout <|
  .pair (.skip 8) <| .pair (.skip 8) (.skip 1)

theorem codes_target : Codes BinReader.target writeTarget targetLayout := by
  refine .of_fields <| .bind codes_string fun _ => .bind codes_u32 fun _ => ?_
  exact .bind codes_u32 fun _ => .last (codes_list codes_u32) fun _ => .pure ⟨rfl, rfl⟩

theorem codes_dependency : Codes BinReader.dependency writeDependency dependencyLayout := by
  refine .of_fields <| .bind codes_string fun _ => .bind codes_string fun _ => ?_
  exact .last codes_string fun _ => .pure ⟨rfl, rfl⟩

theorem codes_capability : Codes BinReader.capability writeCapability capabilityLayout := by
  refine .of_fields <| .bind codes_string fun _ => .bind codes_string fun _ => ?_
  exact .last codes_bool fun _ => .pure ⟨rfl, rfl⟩

theorem codes_constraint : Codes BinReader.constraint writeConstraint constraintLayout :=
  .of_fields <| .bind codes_string fun _ => .last codes_string fun _ => .pure ⟨rfl, rfl⟩

theorem codes_provenance : Codes BinReader.provenance writeProvenance provenanceLayout := by
  refine .of_fields <| .bind codes_string fun _ => .bind codes_string fun _ => ?_
  refine .bind codes_string fun _ => .bind codes_string fun _ => ?_
  exact .last codes_string fun _ => .pure ⟨rfl, rfl⟩

theorem codes_desc : Codes BinReader.desc writeDesc descLayout := by
  have kind : Codes (BinReader.enum AdapterKind.mk isKindOk "invalid adapter kind")
      (fun k => writeU8 k.byte) (.skip 1) := codes_enum fun _ => rfl
  have dtype : Codes (BinReader.enum DType.mk isDtypeOk "invalid dtype")
      (fun t => writeU8 t.byte) (.skip 1) := codes_enum fun _ => rfl
  have validation : Codes
      (BinReader.enum ValidationState.mk isValidationOk "invalid validation state")
      (fun v => writeU8 v.byte) (.skip 1) := codes_enum fun _ => rfl
  refine .of_fields <| .bind codes_id fun _ => .bind codes_id fun _ => .bind codes_id fun _ => ?_
  refine .bind codes_string fun _ => .bind kind fun _ => .bind codes_string fun _ => ?_
  refine .bind codes_id fun _ => .bind codes_id fun _ => .bind (codes_list codes_target) fun _ => ?_
  refine .bind codes_u32 fun _ => .bind dtype fun _ => .bind codes_u64 fun _ => ?_
  refine .bind codes_u64 fun _ => .bind codes_u64 fun _ => .bind codes_string fun _ => ?_
  refine .bind codes_u32 fun _ => .check fun _ => ?_
  refine .bind (codes_list codes_dependency) fun _ =>
    .bind (codes_list codes_capability) fun _ => ?_
  refine .bind (codes_list codes_constraint) fun _ => .bind codes_provenance fun _ => ?_
  refine .bind codes_gen fun _ => .bind codes_gen fun _ => .check fun _ => ?_
  exact .last validation fun _ => .pure ⟨rfl, rfl⟩

/-! ## Snapshots -/

def memberLayout : Layout :=
  .pair (.skip 16) <| .pair (.skip 16) <| .pair (.skip 8) <| .pair (.skip 8) (.skip 1)

def compositionLayout : Layout :=
  .pair (.skip 16) <| .pair (.list memberLayout) <| .pair (.skip 8) <| .pair (.skip 16) <|
  .pair (.skip 16) <| .pair .block <| .pair (.skip 8) <| .pair .block <| .pair .block .flag

def workerCapabilityLayout : Layout := .pair .block .block

def workerLayout : Layout :=
  .pair (.skip 16) <| .pair (.skip 16) <| .pair .block <| .pair (.skip 16) <| .pair (.skip 16) <|
  .pair .flag <| .pair (.skip 8) <| .pair (.list workerCapabilityLayout) <| .pair (.skip 8)
  (.list (.skip 16))

def snapshotLayout : Layout :=
  .pair (.skip 4) <| .pair (.skip 8) <| .pair (.skip 8) <| .pair (.skip 8) <|
  .pair (.list descLayout) <| .pair (.list compositionLayout) (.list workerLayout)

theorem codes_member : Codes BinReader.member writeMember memberLayout := by
  refine .of_fields <| .bind codes_id fun _ => .bind codes_id fun _ => ?_
  refine .bind codes_someGen fun _ => .bind codes_u64 fun _ => ?_
  exact .last codes_u8 fun _ => .pure ⟨rfl, rfl⟩

theorem codes_composition : Codes BinReader.composition writeComposition compositionLayout := by
  refine .of_fields <| .bind codes_id fun _ => .bind (codes_list codes_member) fun _ => ?_
  refine .check fun _ => .bind codes_someGen fun _ => .bind codes_id fun _ => ?_
  refine .bind codes_id fun _ => .bind codes_string fun _ => .bind codes_u64 fun _ => ?_
  refine .bind codes_string fun _ => .bind codes_string fun _ => .last codes_bool fun _ => ?_
  exact .check fun _ => .check fun _ => .pure ⟨rfl, rfl⟩

theorem codes_workerCapability :
    Codes BinReader.workerCapability writeWorkerCapability workerCapabilityLayout :=
  .of_fields <| .bind codes_string fun _ => .last codes_string fun _ => .pure ⟨rfl, rfl⟩

theorem codes_worker : Codes BinReader.worker writeWorker workerLayout := by
  refine .of_fields <| .bind codes_id fun _ => .bind codes_id fun _ =>
    .bind codes_string fun _ => ?_
  refine .bind codes_id fun _ => .bind codes_id fun _ => .bind codes_bool fun _ => ?_
  refine .bind codes_gen fun _ => .bind (codes_list codes_workerCapability) fun _ => ?_
  exact .bind codes_u64 fun _ => .last (codes_list codes_id) fun _ => .pure ⟨rfl, rfl⟩

theorem codes_snapshot : Codes BinReader.snapshot writeSnapshot snapshotLayout := by
  refine .of_fields <| .bind codes_u32 fun fmt => .check fun hfmt => ?_
  obtain rfl : fmt = FabricSnapshot.kFormat := not_not.mp hfmt
  refine .bind codes_gen fun _ => .bind codes_gen fun _ => .bind codes_gen fun _ => ?_
  refine .bind (codes_listFresh codes_desc) fun _ => ?_
  refine .bind (codes_listFresh codes_composition) fun _ => ?_
  exact .last (codes_listFresh codes_worker) fun _ => .pure ⟨rfl, rfl⟩

/-! ## Fences and messages -/

def fenceLayout : Layout :=
  .pair (.skip 16) <| .pair (.skip 16) <| .pair (.skip 8) <| .pair (.skip 8) <| .pair (.skip 8) <|
  .pair (.skip 8) <| .pair (.skip 16) <| .pair (.skip 8) <| .pair (.skip 16) <| .pair (.skip 16) <|
  .pair (.skip 16) <| .pair (.skip 16) (.skip 16)

def messageLayout : Layout :=
  .pair (.skip 1) <| .pair .block <| .pair .block <| .pair .block <| .pair .block <|
  .pair (.skip 8) <| .pair (.skip 8) <| .pair (.skip 8) <| .pair (.skip 8) <| .pair .flag .block

theorem codes_fence : Codes BinReader.fence writeFence fenceLayout := by
  refine .of_fields <| .bind codes_id fun _ => .bind codes_id fun _ => .bind codes_gen fun _ => ?_
  refine .bind codes_gen fun _ => .bind codes_gen fun _ => .bind codes_gen fun _ => ?_
  refine .bind codes_id fun _ => .bind codes_gen fun _ => .bind codes_id fun _ => ?_
  refine .bind codes_id fun _ => .bind codes_id fun _ => .bind codes_id fun _ => ?_
  exact .last codes_id fun _ => .pure ⟨rfl, rfl⟩

theorem codes_payload {n : UInt32} :
    Consumes (BinReader.messagePayload n.toNat) fun w payload =>
      Coded lengthPrefix IsBit .block (writeU32 n ++ w) (writeString payload) := by
  refine (BinReader.messagePayload_fixed n.toNat).consumes.mono ?_
  rintro w payload ⟨hlen, rfl⟩
  have hn : UInt32.ofNat payload.length = n := by rw [hlen, UInt32.ofNat_toNat]
  rw [writeString, hn]
  exact Coded.block (length_writeU32 n) (by rw [hlen, count_writeU32])

theorem codes_message : Codes BinReader.message writeMessage messageLayout := by
  refine .of_fields <| .bind codes_u8 fun _ => .bind codes_string fun _ => ?_
  refine .bind codes_string fun _ => .bind codes_string fun _ => .bind codes_string fun _ => ?_
  refine .bind codes_u64 fun _ => .bind codes_u64 fun _ => .bind codes_u64 fun _ => ?_
  refine .bind codes_u64 fun _ => .bind codes_bool fun _ => ?_
  refine consumes_u32.bind fun p n hp => Consumes.map codes_payload fun w payload hw => ?_
  subst hp
  exact ⟨writeString payload, by simp only [writeMessage, writeString, List.append_assoc]; rfl, hw⟩

/-! ## The wire codec -/

/-- The last eight bytes are the checksum of what stands in front of them. -/
def IsSealed (n : Nat) (b : Bytes) : Prop :=
  b.length = n + 8 ∧ b.drop n = wordBytes (fnv1a_64 fnvSeed (b.take n))

theorem isSealed_iff {n : Nat} {b : Bytes} : IsSealed n b ↔ ∃ P, P.length = n ∧ b = finish P := by
  constructor
  · rintro ⟨hlen, hsum⟩
    refine ⟨b.take n, by rw [List.length_take]; omega, ?_⟩
    rw [finish, ← hsum, List.take_append_drop]
  · rintro ⟨P, rfl, rfl⟩
    exact ⟨by simp [finish], by rw [finish, List.drop_left, List.take_left]⟩

theorem length_writeFence (f : AuthorityFence) : (writeFence f).length = 168 := by
  have hid {tag : IdTag} (i : Id tag) : (writeId i).length = 16 := i.uuid.size_eq
  have hgen {tag : GenTag} (g : Generation tag) : (writeGen g).length = 8 := wordBytes_length _
  simp only [writeFence, List.length_append, hid, hgen]

open BinReader in
theorem fence_fixed : ∃ g, Fixed fence 168 g := by
  have h : ∃ g, Fixed fence (16 + (16 + (8 + (8 + (8 + (8 + (16 + (8 + (16 + (16 + (16 + (16 +
      16)))))))))))) g := by
    refine id_fixed.bind fun _ => id_fixed.bind fun _ => gen_fixed.bind fun _ => ?_
    refine gen_fixed.bind fun _ => gen_fixed.bind fun _ => gen_fixed.bind fun _ => ?_
    refine id_fixed.bind fun _ => gen_fixed.bind fun _ => id_fixed.bind fun _ => ?_
    refine id_fixed.bind fun _ => id_fixed.bind fun _ => id_fixed.bind fun _ => ?_
    exact ⟨_, id_fixed.map _⟩
  exact h

/-- An accepted fence is read back exactly as it was written. -/
theorem encodeFence_decodeFence {b : Bytes} {f : AuthorityFence} (h : decodeFence b = .ok f) :
    encodeFence f = b := by
  obtain ⟨P, rfl, rfl⟩ := decode_consumes (codes_fence.exact rfl) h
  rfl

theorem decodeFence_iff {b : Bytes} : (∃ f, decodeFence b = .ok f) ↔ IsSealed 168 b := by
  rw [isSealed_iff]
  constructor
  · rintro ⟨f, h⟩
    exact ⟨writeFence f, length_writeFence f, (encodeFence_decodeFence h).symm⟩
  · rintro ⟨P, hP, rfl⟩
    obtain ⟨g, hg⟩ := fence_fixed
    exact ⟨g P, decode_of_reads (hg.reads hP)⟩

/-- Messages whose lengths fit their prefixes survive the wire; fences do, `decode_fence` accepts
the sealed strings of their size, and each of these is the encoding of its fence. -/
theorem wire_codec :
    (∀ m : Message, m.Sized → decodeMessage (encodeMessage m) = .ok m) ∧
      (∀ f : AuthorityFence, decodeFence (encodeFence f) = .ok f) ∧
      (∀ b : Bytes, (∃ f, decodeFence b = .ok f) ↔
        b.length = 176 ∧ b.drop 168 = wordBytes (fnv1a_64 fnvSeed (b.take 168))) ∧
      ∀ (b : Bytes) (f : AuthorityFence), decodeFence b = .ok f → encodeFence f = b :=
  ⟨fun _ h => decodeMessage_encodeMessage h, decodeFence_encodeFence, fun _ => decodeFence_iff,
    fun _ _ h => encodeFence_decodeFence h⟩

def sampleMessage : Message where
  type := ⟨0xFF⟩
  text := [0]
  payload := [1, 2]

theorem wire_codec_sample :
    decodeMessage (encodeMessage sampleMessage) = .ok sampleMessage ∧
      encodeFence {} = finish (List.replicate 168 0) := by
  refine ⟨wire_codec.1 sampleMessage (by constructor <;> decide), ?_⟩
  exact wire_codec.2.2.2 (finish (List.replicate 168 0)) {} (by decide +kernel)

/-! ## Canonical encodings -/

/-- The bytes that stand for truth values, where the lengths in `b` place them, are 0 or 1. -/
def FlagsAreBits (l : Layout) (b : Bytes) : Prop :=
  ∀ fs t, l.flags lengthPrefix b = some (fs, t) → ∀ x ∈ fs, IsBit x

theorem encode_decode_iff {α : Type} {body : BinReader.Read α} {write : α → Bytes} {l : Layout}
    (hbody : Codes body write l) {b : Bytes} {a : α} (h : decode body b = .ok a) :
    finish (write a) = b ↔ FlagsAreBits l b := by
  obtain ⟨P, rfl, hcoded⟩ := decode_consumes hbody h
  have hfinish : finish (write a) = finish P ↔ P = write a :=
    ⟨fun he => (finish_inj he).symm, fun he => by rw [he]⟩
  rw [hfinish, hcoded.eq_iff]
  exact Iff.rfl

/-- If `b` is accepted, re-encoding gives it back exactly when its truth values are written as 0 or
1, and then no other such string decodes to the same value. -/
structure CanonicalUpToFlags {α : Type} (decoder : Bytes → Except Error α) (encoder : α → Bytes)
    (l : Layout) (b : Bytes) : Prop where
  reencode : ∀ a : α, decoder b = .ok a → (encoder a = b ↔ FlagsAreBits l b)
  injective : ∀ (b' : Bytes) (a : α), decoder b = .ok a → decoder b' = .ok a →
    FlagsAreBits l b → FlagsAreBits l b' → b = b'

theorem canonicalUpToFlags {α : Type} {body : BinReader.Read α} {write : α → Bytes} {l : Layout}
    (hbody : Codes body write l) (b : Bytes) :
    CanonicalUpToFlags (decode body) (fun a => finish (write a)) l b where
  reencode _ h := encode_decode_iff hbody h
  injective _ _ h h' hb hb' :=
    ((encode_decode_iff hbody h).mpr hb).symm.trans ((encode_decode_iff hbody h').mpr hb')

theorem canonical_iff (b : Bytes) :
    CanonicalUpToFlags decodeMessage encodeMessage messageLayout b ∧
      CanonicalUpToFlags deserializeAdapter serializeAdapter descLayout b ∧
      CanonicalUpToFlags deserializeSnapshot serializeSnapshot snapshotLayout b :=
  ⟨canonicalUpToFlags codes_message b, canonicalUpToFlags codes_desc b,
    canonicalUpToFlags codes_snapshot b⟩

/-- The encoding of a message whose `ok` is written as 2. -/
def laxMessage : Bytes := finish ((writeMessage {}).set 49 2)

theorem canonical_counterexample :
    ∃ b b' m, decodeMessage b = .ok m ∧ encodeMessage m ≠ b ∧ decodeMessage b' = .ok m ∧ b ≠ b' :=
  ⟨laxMessage, encodeMessage { ok := true }, { ok := true }, by decide +kernel, by decide +kernel,
    by decide +kernel, by decide +kernel⟩

theorem canonical_iff_sample :
    ¬ FlagsAreBits messageLayout laxMessage ∧ FlagsAreBits messageLayout (encodeMessage {}) := by
  constructor
  · obtain ⟨⟨hreencode, _⟩, _⟩ := canonical_iff laxMessage
    exact (hreencode { ok := true } (by decide +kernel)).not.mp (by decide +kernel)
  · obtain ⟨⟨hreencode, _⟩, _⟩ := canonical_iff (encodeMessage {})
    exact (hreencode {} (by decide +kernel)).mp rfl

end AdapterFabric
