import AdapterFabric.Persistence.Access

/-!
# AdapterFabric.Persistence.Decoders

The decoders as programs of reader calls (`persistence.cpp`, `protocol.cpp`).

* `body_agrees`: a program of calls never leaves the payload, and does what its reader does.
* `Built`: a reader that is put together from calls alone; every decoder's body is.
* `reader_stays_inside`: from any accepted string, no sequence of calls and no decoder reads outside
  the payload, and the cursor moves by what is returned.
-/

namespace AdapterFabric

open Cursor Interleave

/-! ## Sequences of calls -/

/-- The reader after a call, whether it returned or threw; `none` once a call has left the
bounds. -/
def stepCall (c : Call) (s : Option BinReader) : Option BinReader :=
  s.bind fun r => (c.checked r).map Prod.snd

/-- Whatever is called, the reader stays in the payload it was opened on. -/
theorem run_calls {r : BinReader} (hv : Tape.Valid r) (cs : List Call) :
    ∃ r', Run.exec stepCall cs (some r) = some r' ∧ Checked.Stays r r' := by
  refine Run.exec_preserves (P := fun s => ∃ r', s = some r' ∧ Checked.Stays r r') ?_
    ⟨r, rfl, .refl hv⟩
  rintro c _ _ ⟨r₁, rfl, hstay⟩
  obtain ⟨result, r₂, hrun, hstay', -⟩ := c.agrees r₁ hstay.valid
  refine ⟨r₂, ?_, hstay.trans hstay'⟩
  rw [stepCall, Option.bind_some, hrun]
  rfl

/-! ## The constructor and the end check -/

/-- The constructor with its accesses: the trailer, and the payload for the checksum. -/
def openChecked (data : Bytes) : Option (Except Error BinReader) :=
  if data.length < 8 then some (.error ⟨.malformed, ascii "payload too small"⟩)
  else do
    let payloadEnd ← sizeDiff data.length 8
    let stored ← orRange data.length data payloadEnd 0 8 0#64
    let payload ← copyRange data.length data 0 payloadEnd
    if fnv1a_64 fnvSeed payload ≠ ⟨stored⟩ then
      some (.error ⟨.checksumMismatch, ascii "checksum mismatch"⟩)
    else some (.ok ⟨data, 0, payloadEnd⟩)

theorem openChecked_eq (data : Bytes) : openChecked data = some (BinReader.open data) := by
  unfold openChecked BinReader.open
  by_cases hlen : data.length < 8
  · rw [if_pos hlen, if_pos hlen]
  · have hdiff : sizeDiff data.length 8 = some (data.length - 8) := if_pos (by omega)
    rw [if_neg hlen, if_neg hlen, hdiff]
    simp only [Option.bind_eq_bind, Option.bind_some]
    rw [orRange_eq (Nat.le_refl _) (by omega), copyRange_eq (Nat.le_refl _) (by omega)]
    simp only [Option.bind_some, Nat.add_zero, List.drop_zero, bytesWord]
    exact (apply_ite some _ _ _).symm

theorem valid_of_open {data : Bytes} {r : BinReader} (h : BinReader.open data = .ok r) :
    8 ≤ data.length ∧ r = ⟨data, 0, data.length - 8⟩ ∧ Tape.Valid r := by
  obtain ⟨P, rfl, rfl⟩ := open_inv h
  have hlen : (finish P).length = P.length + 8 := by simp [finish]
  exact ⟨by omega, by rw [hlen, Nat.add_sub_cancel], start_valid P⟩

/-! ## Programs -/

/-- What a decoder may ask of its reader. -/
inductive Ask where
  | call (c : Call)
  | size
  | fail (e : Error)

namespace Ask

def Answer : Ask → Type
  | call c => c.Result
  | size => Nat
  | fail _ => Empty

def checked : (a : Ask) → Checked a.Answer
  | call c => c.checked
  | size => fun r => some (.ok r.size, r)
  | fail e => Checked.raise e

def read : (a : Ask) → BinReader.Read a.Answer
  | call c => c.read
  | size => do
    let r ← get
    pure r.size
  | fail e => throw e

theorem agrees (a : Ask) : Checked.Agrees a.checked a.read := by
  cases a with
  | call c => exact c.agrees
  | size => exact fun r hv => ⟨.ok r.size, r, rfl, .refl hv, rfl⟩
  | fail e => exact .raise e

end Ask

/-- A decoder's body, as the calls it makes and what it does with their results. -/
abbrev Body (α : Type) := Prog Ask Ask.Answer α

theorem body_agrees {α : Type} (p : Body α) :
    Checked.Agrees (p.denote Ask.checked) (p.denote Ask.read) := by
  induction p with
  | done a => exact .pure a
  | perform a k ih => exact (Ask.agrees a).bind ih

/-- `decode` with all its accesses. -/
def decodeChecked {α : Type} (p : Body α) (bytes : Bytes) : Option (Except Error α) := do
  match ← openChecked bytes with
  | .error e => some (.error e)
  | .ok r =>
    match ← p.denote Ask.checked r with
    | (.error e, _) => some (.error e)
    | (.ok a, r) => do
      let expected ← sizeDiff r.size 8
      some (do
        r.expectEnd expected
        pure a)

theorem decodeChecked_eq {α : Type} (p : Body α) (bytes : Bytes) :
    decodeChecked p bytes = some (decode (p.denote Ask.read) bytes) := by
  unfold decodeChecked decode
  rw [openChecked_eq]
  cases hopen : BinReader.open bytes with
  | error e => rfl
  | ok r =>
    obtain ⟨hlen, hr, hv⟩ := valid_of_open hopen
    obtain ⟨result, r', hrun, hstay, hread⟩ := body_agrees p r hv
    have hsize : 8 ≤ r'.size := by
      show 8 ≤ r'.data.length
      rw [hstay.data, hr]
      exact hlen
    have hdiff : sizeDiff r'.size 8 = some (sizeSub r'.size 8) := by
      rw [sizeDiff, if_pos hsize, sizeSub, if_pos hsize]
    simp only [Option.bind_eq_bind, Option.bind_some, hrun]
    show _ = some ((p.denote Ask.read).run r >>= fun x => do
      x.2.expectEnd (sizeSub x.2.size 8)
      pure x.1)
    rw [hread]
    cases result with
    | error e => rfl
    | ok a =>
      simp only [hdiff, Option.bind_some]
      rfl

/-! ## The decoders' bodies -/

/-- The reader is what a program of calls does. -/
def Built {α : Type} (p : BinReader.Read α) : Prop := ∃ body : Body α, body.denote Ask.read = p

namespace Built

variable {α β : Type}

theorem pure (a : α) : Built (Pure.pure a) := ⟨.done a, rfl⟩

theorem ask (a : Ask) : Built a.read := ⟨.call a, Prog.denote_call _ a⟩

theorem bind {p : BinReader.Read α} {f : α → BinReader.Read β} (hp : Built p)
    (hf : ∀ a, Built (f a)) : Built (p >>= f) := by
  obtain ⟨body, rfl⟩ := hp
  choose rest hrest using hf
  refine ⟨body >>= rest, ?_⟩
  rw [Prog.denote_bind]
  exact congrArg _ (funext hrest)

theorem raise (e : Error) : Built (throw e : BinReader.Read α) :=
  ⟨.perform (.fail e) Empty.elim, rfl⟩

theorem throwIf {q : Prop} [Decidable q] {e : Error} :
    Built (Cursor.throwIf q e : BinReader.Read PUnit) := by
  unfold Cursor.throwIf
  split
  · exact raise e
  · exact pure _

theorem u8 : Built BinReader.u8 := ask (.call .u8)

theorem u32 : Built BinReader.u32 := ask (.call .u32)

theorem u64 : Built BinReader.u64 := ask (.call .u64)

theorem string : Built BinReader.string := ask (.call .string)

theorem bytes (n : Nat) : Built (BinReader.bytes n) := ask (.call (.bytes n))

theorem id {tag : IdTag} : Built (BinReader.id : BinReader.Read (Id tag)) :=
  ((bytes 16).bind fun _ => pure _).bind fun _ => pure _

theorem gen {tag : GenTag} : Built (BinReader.gen : BinReader.Read (Generation tag)) :=
  u64.bind fun _ => pure _

theorem bool : Built BinReader.bool := u8.bind fun _ => pure _

theorem times {p : BinReader.Read α} (h : Built p) (n : Nat) : Built (Cursor.times p n) := by
  induction n with
  | zero => exact pure _
  | succ n ih => exact h.bind fun _ => ih.bind fun _ => pure _

theorem timesFresh {p : BinReader.Read α} (h : Built p) {key : α → Bytes} {dup : Error} (n : Nat) :
    ∀ seen : List Bytes, Built (Cursor.timesFresh key dup p n seen) := by
  induction n with
  | zero => exact fun _ => pure _
  | succ n ih =>
    intro seen
    refine h.bind fun a => ?_
    by_cases hseen : key a ∈ seen
    · rw [if_pos hseen]
      exact raise dup
    · rw [if_neg hseen]
      exact (ih _).bind fun _ => pure _

theorem list {p : BinReader.Read α} (h : Built p) {limit : Nat} {tooMany : String} :
    Built (BinReader.list limit tooMany p) :=
  u32.bind fun n => throwIf.bind fun _ => h.times n.toNat

theorem listFresh {p : BinReader.Read α} (h : Built p) {limit : Nat} {tooMany dup : String}
    {key : α → Bytes} : Built (BinReader.listFresh limit tooMany key dup p) :=
  u32.bind fun n => throwIf.bind fun _ => h.timesFresh n.toNat []

theorem enum {ε : Type} {mk : UInt8 → ε} {isOk : ε → Bool} {what : String} :
    Built (BinReader.enum mk isOk what) :=
  u8.bind fun _ => throwIf.bind fun _ => pure _

theorem someGen {tag : GenTag} {what : String} :
    Built (BinReader.someGen what : BinReader.Read (Generation tag)) :=
  gen.bind fun _ => throwIf.bind fun _ => pure _

theorem target : Built BinReader.target :=
  string.bind fun _ => u32.bind fun _ => u32.bind fun _ => u32.list.bind fun _ => pure _

theorem dependency : Built BinReader.dependency :=
  string.bind fun _ => string.bind fun _ => string.bind fun _ => pure _

theorem capability : Built BinReader.capability :=
  string.bind fun _ => string.bind fun _ => bool.bind fun _ => pure _

theorem constraint : Built BinReader.constraint :=
  string.bind fun _ => string.bind fun _ => pure _

theorem provenance : Built BinReader.provenance :=
  string.bind fun _ => string.bind fun _ => string.bind fun _ => string.bind fun _ =>
    string.bind fun _ => pure _

theorem desc : Built BinReader.desc := by
  refine id.bind fun _ => id.bind fun _ => id.bind fun _ => string.bind fun _ => enum.bind fun _ =>
    string.bind fun _ => id.bind fun _ => id.bind fun _ => target.list.bind fun _ => ?_
  refine u32.bind fun _ => enum.bind fun _ => u64.bind fun _ => u64.bind fun _ => u64.bind fun _ =>
    string.bind fun _ => u32.bind fun _ => throwIf.bind fun _ => ?_
  refine dependency.list.bind fun _ => capability.list.bind fun _ => constraint.list.bind fun _ =>
    provenance.bind fun _ => ?_
  exact gen.bind fun _ => gen.bind fun _ => throwIf.bind fun _ => enum.bind fun _ => pure _

theorem member : Built BinReader.member :=
  id.bind fun _ => id.bind fun _ => someGen.bind fun _ => u64.bind fun _ => u8.bind fun _ => pure _

theorem composition : Built BinReader.composition := by
  refine id.bind fun _ => member.list.bind fun _ => throwIf.bind fun _ => someGen.bind fun _ => ?_
  refine id.bind fun _ => id.bind fun _ => string.bind fun _ => u64.bind fun _ =>
    string.bind fun _ => string.bind fun _ => bool.bind fun _ => ?_
  exact throwIf.bind fun _ => throwIf.bind fun _ => pure _

theorem workerCapability : Built BinReader.workerCapability :=
  string.bind fun _ => string.bind fun _ => pure _

theorem worker : Built BinReader.worker := by
  refine id.bind fun _ => id.bind fun _ => string.bind fun _ => id.bind fun _ => id.bind fun _ => ?_
  exact bool.bind fun _ => gen.bind fun _ => workerCapability.list.bind fun _ =>
    u64.bind fun _ => id.list.bind fun _ => pure _

theorem snapshot : Built BinReader.snapshot := by
  refine u32.bind fun _ => throwIf.bind fun _ => gen.bind fun _ => gen.bind fun _ =>
    gen.bind fun _ => ?_
  exact desc.listFresh.bind fun _ => composition.listFresh.bind fun _ =>
    worker.listFresh.bind fun _ => pure _

theorem fence : Built BinReader.fence := by
  refine id.bind fun _ => id.bind fun _ => gen.bind fun _ => gen.bind fun _ => gen.bind fun _ =>
    gen.bind fun _ => id.bind fun _ => ?_
  exact gen.bind fun _ => id.bind fun _ => id.bind fun _ => id.bind fun _ => id.bind fun _ =>
    id.bind fun _ => pure _

theorem messagePayload (n : Nat) : Built (BinReader.messagePayload n) := by
  -- the size asked for is the one of the whole message
  have size : Built (do let r ← get; Pure.pure r.size : BinReader.Read Nat) := ask .size
  exact size.bind fun _ => throwIf.bind fun _ => bytes n

theorem message : Built BinReader.message := by
  refine u8.bind fun _ => string.bind fun _ => string.bind fun _ => string.bind fun _ =>
    string.bind fun _ => ?_
  exact u64.bind fun _ => u64.bind fun _ => u64.bind fun _ => u64.bind fun _ => bool.bind fun _ =>
    u32.bind fun n => (messagePayload n.toNat).bind fun _ => pure _

end Built

/-- The decoder is a program of calls, and with all its accesses it decodes as before. -/
def EndsInside {α : Type} (body : BinReader.Read α) (decoder : Bytes → Except Error α) : Prop :=
  ∃ p : Body α, p.denote Ask.read = body ∧ ∀ bytes, decodeChecked p bytes = some (decoder bytes)

theorem Built.endsInside {α : Type} {p : BinReader.Read α} (h : Built p) :
    EndsInside p (decode p) := by
  obtain ⟨body, rfl⟩ := h
  exact ⟨body, rfl, decodeChecked_eq body⟩

/-- The reader stands inside the payload of `bytes`, whose size less the trailer does not wrap. -/
structure InPayload (bytes : Bytes) (r : BinReader) : Prop where
  data : r.data = bytes
  trailer : 8 ≤ bytes.length
  payloadEnd : r.payloadEnd = bytes.length - 8
  pos : r.pos ≤ r.payloadEnd

/-- Every call from `r` ends, and one that returns moves the cursor by what it returns. -/
def CallsEnd (r : BinReader) : Prop :=
  ∀ c : Call, ∃ result r', c.checked r = some (result, r') ∧
    ∀ v, result = .ok v → r'.pos = r.pos + c.width v

theorem callsEnd {r : BinReader} (hv : Tape.Valid r) : CallsEnd r := by
  intro c
  obtain ⟨result, r', hrun, -, -⟩ := c.agrees r hv
  refine ⟨result, r', hrun, ?_⟩
  rintro v rfl
  exact c.advances hv hrun

/-- Neither the constructor, nor any sequence of calls behind it, nor any decoder leaves the
payload. -/
theorem reader_stays_inside :
    (∀ data, openChecked data = some (BinReader.open data)) ∧
    (∀ data r, BinReader.open data = .ok r → ∀ cs, ∃ r', Run.exec stepCall cs (some r) = some r' ∧
      InPayload data r' ∧ CallsEnd r') ∧
    EndsInside BinReader.desc deserializeAdapter ∧
    EndsInside BinReader.snapshot deserializeSnapshot ∧
    EndsInside BinReader.message decodeMessage ∧ EndsInside BinReader.fence decodeFence := by
  refine ⟨openChecked_eq, ?_, Built.desc.endsInside, Built.snapshot.endsInside,
    Built.message.endsInside, Built.fence.endsInside⟩
  intro data r hopen cs
  obtain ⟨hlen, rfl, hv⟩ := valid_of_open hopen
  obtain ⟨r', hrun, hstay⟩ := run_calls hv cs
  exact ⟨r', hrun, ⟨hstay.data, hlen, hstay.payloadEnd, hstay.valid.1⟩, callsEnd hstay.valid⟩

/-- A string length beyond the payload, and a call after the refusal. -/
theorem reader_stays_inside_sample :
    ∃ r', Run.exec stepCall [.string, .u8] (some ⟨finish [9, 0, 0, 0, 7], 0, 5⟩) = some r' ∧
      InPayload (finish [9, 0, 0, 0, 7]) r' ∧ CallsEnd r' :=
  reader_stays_inside.2.1 _ _ (open_finish [9, 0, 0, 0, 7]) [.string, .u8]

end AdapterFabric
