import AdapterFabric.Authority
import AdapterFabric.Persistence.Snapshot

/-!
# AdapterFabric.Protocol

Messages, fences and their codecs (`protocol.hpp`, `protocol.cpp`).

* `decoders_prefixFree`: no decoder accepts two payloads of which one is a proper prefix of the
  other, each with its own correct checksum.
-/

namespace AdapterFabric

open Cursor

/-- The operation codes. A decoded type byte need not be a declared one. -/
structure MsgType where
  byte : UInt8
deriving DecidableEq

namespace MsgType

def ctlRegisterWorker : MsgType := ⟨0x10⟩
def ctlRegisterAdapter : MsgType := ⟨0x11⟩
def ctlValidate : MsgType := ⟨0x12⟩
def ctlLoad : MsgType := ⟨0x13⟩
def ctlActivate : MsgType := ⟨0x14⟩
def ctlDeactivate : MsgType := ⟨0x15⟩
def ctlCompose : MsgType := ⟨0x16⟩
def ctlMigrate : MsgType := ⟨0x17⟩
def ctlInvalidate : MsgType := ⟨0x18⟩
def ctlEvict : MsgType := ⟨0x19⟩
def ctlPin : MsgType := ⟨0x1A⟩
def ctlUnpin : MsgType := ⟨0x1B⟩
def ctlSnapshot : MsgType := ⟨0x1C⟩
def ctlExplain : MsgType := ⟨0x1D⟩
def ctlList : MsgType := ⟨0x1E⟩
def ctlEpoch : MsgType := ⟨0x1F⟩
def ctlCapacity : MsgType := ⟨0x20⟩
def ctlComplete : MsgType := ⟨0x21⟩
def ctlShutdown : MsgType := ⟨0x2E⟩
def ctlResult : MsgType := ⟨0x2F⟩
def wkRegister : MsgType := ⟨0x30⟩
def wkRegisterAck : MsgType := ⟨0x31⟩
def wkInventory : MsgType := ⟨0x32⟩
def wkReady : MsgType := ⟨0x33⟩
def wkComplete : MsgType := ⟨0x34⟩
def wkError : MsgType := ⟨0x35⟩
def wkLoad : MsgType := ⟨0x40⟩
def wkLoadAck : MsgType := ⟨0x41⟩
def wkActivate : MsgType := ⟨0x42⟩
def wkActivateAck : MsgType := ⟨0x43⟩
def wkDeactivate : MsgType := ⟨0x44⟩
def wkDeactivateAck : MsgType := ⟨0x45⟩
def wkMigrate : MsgType := ⟨0x46⟩
def wkMigrateAck : MsgType := ⟨0x47⟩
def wkInvalidate : MsgType := ⟨0x48⟩
def wkInvalidateAck : MsgType := ⟨0x49⟩
def wkShutdown : MsgType := ⟨0x4F⟩
def ping : MsgType := ⟨0x50⟩
def pong : MsgType := ⟨0x51⟩

end MsgType

/-- A generic message: identities as canonical text, numbers, and an opaque payload. -/
structure Message where
  type : MsgType := .ping
  text : Bytes := []
  text2 : Bytes := []
  text3 : Bytes := []
  text4 : Bytes := []
  a : UInt64 := 0
  b : UInt64 := 0
  c : UInt64 := 0
  reqId : UInt64 := 0
  ok : Bool := false
  payload : Bytes := []
deriving DecidableEq

/-! ## Writers -/

def writeFence (f : AuthorityFence) : Bytes :=
  writeId f.adapter ++ writeId f.composition ++ writeGen f.adapterGeneration ++
    writeGen f.compositionGeneration ++ writeGen f.residencyGeneration ++
    writeGen f.artifactGeneration ++ writeId f.baseModelRevision ++ writeGen f.epoch ++
    writeId f.worker ++ writeId f.boot ++ writeId f.attempt ++ writeId f.device ++ writeId f.node

def writeMessage (m : Message) : Bytes :=
  writeU8 m.type.byte ++ writeString m.text ++ writeString m.text2 ++ writeString m.text3 ++
    writeString m.text4 ++ writeU64 m.a ++ writeU64 m.b ++ writeU64 m.c ++ writeU64 m.reqId ++
    writeBool m.ok ++ writeU32 (.ofNat m.payload.length) ++ m.payload

def encodeFence (f : AuthorityFence) : Bytes := finish (writeFence f)

def encodeMessage (m : Message) : Bytes := finish (writeMessage m)

/-! ## Readers -/

namespace BinReader

def fence : Read AuthorityFence := do
  let adapter ← id
  let composition ← id
  let adapterGeneration ← gen
  let compositionGeneration ← gen
  let residencyGeneration ← gen
  let artifactGeneration ← gen
  let baseModelRevision ← id
  let epoch ← gen
  let worker ← id
  let boot ← id
  let attempt ← id
  let device ← id
  let node ← id
  pure {
    adapter, composition, adapterGeneration, compositionGeneration, residencyGeneration,
    artifactGeneration, baseModelRevision, epoch, worker, boot, attempt, device, node }

/-- The payload of a message: `n` may not exceed the size of the whole message. -/
def messagePayload (n : Nat) : Read Bytes := do
  let r ← get
  throwIf (n > r.size) ⟨.malformed, ascii "payload length exceeds message"⟩
  bytes n

def message : Read Message := do
  let type ← u8
  let text ← string
  let text2 ← string
  let text3 ← string
  let text4 ← string
  let a ← u64
  let b ← u64
  let c ← u64
  let reqId ← u64
  let ok ← bool
  let n ← u32
  let payload ← messagePayload n.toNat
  pure { type := ⟨type⟩, text, text2, text3, text4, a, b, c, reqId, ok, payload }

open Tape in
/-- The check against the message size is implied by the one against the payload, so it changes
only the error. -/
theorem messagePayload_fixed (n : Nat) : Fixed (messagePayload n) n fun w => w := by
  intro r hv
  have hlen := rest_length hv
  have ⟨_, hend⟩ := hv
  have hrun : (messagePayload n).run r =
      if n > r.size then .error ⟨.malformed, ascii "payload length exceeds message"⟩
      else (bytes n).run r := by
    show (throwIf (n > r.size) _ : Read PUnit).run r >>= _ = _
    unfold throwIf
    split <;> rfl
  rw [hrun]
  constructor
  · intro hn
    have hsize : ¬ n > r.size := by
      show ¬ n > r.data.length
      omega
    rw [if_neg hsize]
    exact (bytes_fixed n r hv).1 hn
  · intro hn
    split
    · exact ⟨_, rfl⟩
    · exact (bytes_fixed n r hv).2 hn

end BinReader

def decodeFence (bytes : Bytes) : Except Error AuthorityFence := decode BinReader.fence bytes

def decodeMessage (bytes : Bytes) : Except Error Message := decode BinReader.message bytes

/-! ## Round trip -/

theorem reads_fence (f : AuthorityFence) : Reads BinReader.fence (writeFence f) f := by
  simp only [writeFence, List.append_assoc]
  refine (reads_id _).bind <| (reads_id _).bind <| (reads_gen _).bind <| (reads_gen _).bind ?_
  refine (reads_gen _).bind <| (reads_gen _).bind <| (reads_id _).bind <| (reads_gen _).bind ?_
  refine (reads_id _).bind <| (reads_id _).bind <| (reads_id _).bind <| (reads_id _).bind ?_
  exact (reads_id _).map (.pure _)

theorem decodeFence_encodeFence (f : AuthorityFence) : decodeFence (encodeFence f) = .ok f :=
  decode_of_reads (reads_fence f)

/-- The lengths that the wire has room for. -/
structure Message.Sized (m : Message) : Prop where
  text : m.text.length < 2 ^ 32
  text2 : m.text2.length < 2 ^ 32
  text3 : m.text3.length < 2 ^ 32
  text4 : m.text4.length < 2 ^ 32
  payload : m.payload.length < 2 ^ 32

theorem reads_message {m : Message} (h : m.Sized) :
    Reads BinReader.message (writeMessage m) m := by
  have hpayload : Reads (BinReader.messagePayload (UInt32.ofNat m.payload.length).toNat) m.payload
      m.payload := by
    have hlen : (UInt32.ofNat m.payload.length).toNat = m.payload.length :=
      UInt32.toNat_ofNat_of_lt' h.payload
    rw [hlen]
    exact (BinReader.messagePayload_fixed _).reads rfl
  simp only [writeMessage, List.append_assoc]
  refine (reads_u8 _).bind <| (reads_string h.text).bind <| (reads_string h.text2).bind ?_
  refine (reads_string h.text3).bind <| (reads_string h.text4).bind <| (reads_u64 _).bind ?_
  refine (reads_u64 _).bind <| (reads_u64 _).bind <| (reads_u64 _).bind <| (reads_bool _).bind ?_
  exact (reads_u32 _).bind (hpayload.map (.pure _))

theorem decodeMessage_encodeMessage {m : Message} (h : m.Sized) :
    decodeMessage (encodeMessage m) = .ok m :=
  decode_of_reads (reads_message h)

/-! ## What the decoders accept -/

theorem accepts_fence : Accepts BinReader.fence fun _ => True := by
  refine accepts_id.bind fun _ _ => accepts_id.bind fun _ _ => accepts_gen.bind fun _ _ => ?_
  refine accepts_gen.bind fun _ _ => accepts_gen.bind fun _ _ => accepts_gen.bind fun _ _ => ?_
  refine accepts_id.bind fun _ _ => accepts_gen.bind fun _ _ => accepts_id.bind fun _ _ => ?_
  refine accepts_id.bind fun _ _ => accepts_id.bind fun _ _ => accepts_id.bind fun _ _ => ?_
  exact accepts_id.bind fun _ _ => .pure trivial

theorem accepts_message : Accepts BinReader.message fun _ => True := by
  refine accepts_u8.bind fun _ _ => accepts_string.bind fun _ _ => ?_
  refine accepts_string.bind fun _ _ => accepts_string.bind fun _ _ => ?_
  refine accepts_string.bind fun _ _ => accepts_u64.bind fun _ _ => ?_
  refine accepts_u64.bind fun _ _ => accepts_u64.bind fun _ _ => accepts_u64.bind fun _ _ => ?_
  refine accepts_bool.bind fun _ _ => accepts_u32.bind fun n _ => ?_
  exact (BinReader.messagePayload_fixed n.toNat).accepts.bind fun _ _ => .pure trivial

/-! ## Prefix freedom -/

/-- `P` and its own checksum are accepted. -/
def AcceptsPayload {α : Type} (decoder : Bytes → Except Error α) (P : Bytes) : Prop :=
  ∃ a, decoder (finish P) = .ok a

/-- Neither a proper prefix nor a proper extension of an accepted payload is accepted, whatever
checksum follows it. -/
def PrefixFree {α : Type} (decoder : Bytes → Except Error α) : Prop :=
  ∀ P P', AcceptsPayload decoder P → P' ≠ P → (P' <+: P ∨ P <+: P') →
    ¬ AcceptsPayload decoder P'

theorem decode_prefixFree {α : Type} {body : BinReader.Read α} {Q : α → Prop}
    (h : Accepts body Q) : PrefixFree (decode body) := by
  rintro P P' ⟨a, ha⟩ hne hpre ⟨a', ha'⟩
  obtain ⟨w, hw, hreads⟩ := (decode_ok_iff h).mp ha
  obtain ⟨w', hw', hreads'⟩ := (decode_ok_iff h).mp ha'
  obtain rfl := finish_inj hw
  obtain rfl := finish_inj hw'
  rcases hpre with hp | hp
  · exact hne (hreads'.prefix_free hreads hp)
  · exact hne (hreads.prefix_free hreads' hp).symm

theorem decoders_prefixFree :
    PrefixFree decodeMessage ∧ PrefixFree decodeFence ∧ PrefixFree deserializeAdapter ∧
      PrefixFree deserializeSnapshot :=
  ⟨decode_prefixFree accepts_message, decode_prefixFree accepts_fence,
    decode_prefixFree accepts_desc, decode_prefixFree accepts_snapshot⟩

theorem decoders_prefixFree_sample :
    ¬ AcceptsPayload decodeMessage (writeMessage {} ++ [0]) := by
  have haccepted : AcceptsPayload decodeMessage (writeMessage {}) := ⟨{}, by decide +kernel⟩
  exact decoders_prefixFree.1 _ _ haccepted (by simp) (.inr (List.prefix_append _ _))

end AdapterFabric
