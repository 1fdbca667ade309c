import AdapterFabric.Lib.ProgramLogic
import AdapterFabric.Protocol

/-!
# AdapterFabric.Persistence.Access

The memory accesses of `BinReader` (`persistence.cpp`).

Here the reader is followed down to its index expressions and its differences of sizes. A run ends
in a value or an error next to the reader it leaves, and `none` stands for a run that has read
outside its bounds or has taken a difference below zero.

* `Call.agrees`: from inside the payload no call does so, and it does what the reader of the same
  name does.
* `Call.advances`: a call that returns moves the cursor by what it returns.
-/

namespace AdapterFabric

open Cursor

/-! ## Accesses -/

/-- `data[i]`, which must lie below `bound`. -/
def elemBelow (bound : Nat) (data : Bytes) (i : Nat) : Option UInt8 :=
  if i < bound then data[i]? else none

/-- `a - b` on `size_t`, which must not wrap. -/
def sizeDiff (a b : Nat) : Option Nat := if b ≤ a then some (a - b) else none

/-- The octets `data[pos .. pos + n)`. -/
def copyRange (bound : Nat) (data : Bytes) : (pos n : Nat) → Option Bytes
  | _, 0 => some []
  | pos, n + 1 => do
    let b ← elemBelow bound data pos
    let bs ← copyRange bound data (pos + 1) n
    some (b :: bs)

/-- The loop `v |= data[pos + i] << (8 * i)`, from `i` on for `n` rounds. -/
def orRange {w : Nat} (bound : Nat) (data : Bytes) (pos : Nat) :
    (i n : Nat) → BitVec w → Option (BitVec w)
  | _, 0, v => some v
  | i, n + 1, v => do
    let b ← elemBelow bound data (pos + i)
    orRange bound data pos (i + 1) n (v ||| b.toBitVec.setWidth w <<< (8 * i))

section Ranges

variable {bound : Nat} {data : Bytes}

theorem elemBelow_eq {i : Nat} (hbound : i < bound) (hi : i < data.length) :
    elemBelow bound data i = some data[i] := by
  rw [elemBelow, if_pos hbound, List.getElem?_eq_getElem hi]

theorem copyRange_eq (hbound : bound ≤ data.length) {n : Nat} : ∀ {pos : Nat}, pos + n ≤ bound →
    copyRange bound data pos n = some ((data.drop pos).take n) := by
  induction n with
  | zero =>
    intro pos _
    rfl
  | succ n ih =>
    intro pos h
    rw [copyRange, elemBelow_eq (by omega) (by omega), ih (by omega),
      List.drop_eq_getElem_cons (by omega : pos < data.length), List.take_succ_cons]
    rfl

theorem orRange_eq {w : Nat} (hbound : bound ≤ data.length) {pos n : Nat} :
    ∀ {i : Nat} {v : BitVec w}, pos + i + n ≤ bound → orRange bound data pos i n v =
      some (LittleEndian.orIn i v ((data.drop (pos + i)).take n)) := by
  induction n with
  | zero =>
    intro i v _
    rfl
  | succ n ih =>
    intro i v h
    rw [orRange, elemBelow_eq (by omega) (by omega),
      List.drop_eq_getElem_cons (by omega : pos + i < data.length), List.take_succ_cons,
      LittleEndian.orIn]
    exact ih (by omega)

end Ranges

/-! ## The calls -/

/-- A run from a reader: a value or an error, and the reader it leaves. -/
def Checked (α : Type) := BinReader → Option (Except Error α × BinReader)

variable {α β : Type}

namespace Checked

instance : Monad Checked where
  pure a r := some (.ok a, r)
  bind p f r := (p r).bind fun
    | (.error e, r') => some (.error e, r')
    | (.ok a, r') => f a r'

theorem bind_ok {p : Checked α} {f : α → Checked β} {r r' : BinReader} {a : α}
    (h : p r = some (.ok a, r')) : (p >>= f) r = f a r' := by
  show (p r).bind _ = _
  rw [h]
  rfl

theorem bind_error {p : Checked α} {f : α → Checked β} {r r' : BinReader} {e : Error}
    (h : p r = some (.error e, r')) : (p >>= f) r = some (.error e, r') := by
  show (p r).bind _ = _
  rw [h]
  rfl

def current : Checked BinReader := fun r => some (.ok r, r)

/-- An access or a difference; without a result it ends the run. -/
def attempt (o : BinReader → Option α) : Checked α := fun r => (o r).map fun a => (.ok a, r)

def raise (e : Error) : Checked α := fun r => some (.error e, r)

/-- `pos_ += n`. -/
def move (n : Nat) : Checked Unit := fun r => some (.ok (), { r with pos := r.pos + n })

def check (n : Nat) : Checked Unit := do
  let r ← current
  if r.pos > r.payloadEnd then raise ⟨.truncation, ascii "read past payload"⟩
  else do
    let room ← attempt fun r => sizeDiff r.payloadEnd r.pos
    if n > room then raise ⟨.truncation, ascii "read past payload"⟩ else pure ()

/-- A check, the accesses behind it, and the cursor past them. -/
def guarded (n : Nat) (access : (bound : Nat) → (data : Bytes) → (pos : Nat) → Option α) :
    Checked α := do
  check n
  let v ← attempt fun r => access r.payloadEnd r.data r.pos
  move n
  pure v

def u8 : Checked UInt8 := guarded 1 elemBelow

def u16 : Checked UInt16 :=
  guarded 2 fun bound data pos => do
    let lo ← elemBelow bound data pos
    let hi ← elemBelow bound data (pos + 1)
    some (lo.toUInt16 ||| hi.toUInt16 <<< 8)

def u32 : Checked UInt32 :=
  guarded 4 fun bound data pos => do
    let v ← orRange bound data pos 0 4 0#32
    some ⟨v⟩

def u64 : Checked UInt64 :=
  guarded 8 fun bound data pos => do
    let v ← orRange bound data pos 0 8 0#64
    some ⟨v⟩

def bytes (n : Nat) : Checked Bytes := guarded n fun bound data pos => copyRange bound data pos n

/-- The part of `string` after its length prefix; the difference is taken without a look at the
cursor. -/
def stringBody (n : Nat) : Checked Bytes := do
  let room ← attempt fun r => sizeDiff r.payloadEnd r.pos
  if n > room then raise ⟨.malformed, ascii "string length exceeds payload"⟩
  else do
    let s ← attempt fun r => copyRange r.payloadEnd r.data r.pos n
    move n
    pure s

def string : Checked Bytes := do
  let n ← u32
  stringBody n.toNat

open Tape

/-- `r'` is `r` with its cursor moved, or left, inside the payload. -/
structure Stays (r r' : BinReader) : Prop where
  data : r'.data = r.data
  payloadEnd : r'.payloadEnd = r.payloadEnd
  forward : r.pos ≤ r'.pos
  valid : Valid r'

theorem Stays.refl {r : BinReader} (hv : Valid r) : Stays r r := ⟨rfl, rfl, Nat.le_refl _, hv⟩

theorem Stays.trans {r r' r'' : BinReader} (h : Stays r r') (h' : Stays r' r'') : Stays r r'' :=
  ⟨h'.data.trans h.data, h'.payloadEnd.trans h.payloadEnd, h.forward.trans h'.forward, h'.valid⟩

theorem Stays.skip {r : BinReader} (hv : Valid r) {n : Nat} (hn : n ≤ (rest r).length) :
    Stays r (skip n r) :=
  ⟨rfl, rfl, Nat.le_add_right _ _, valid_skip hv hn⟩

/-- From inside the payload `m` ends, stays inside, and does what `p` does. -/
def Agrees (m : Checked α) (p : BinReader.Read α) : Prop :=
  ∀ r, Valid r → ∃ result r', m r = some (result, r') ∧ Stays r r' ∧
    p.run r = result.map fun a => (a, r')

namespace Agrees

theorem pure (a : α) : Agrees (Pure.pure a) (Pure.pure a) :=
  fun r hv => ⟨.ok a, r, rfl, .refl hv, rfl⟩

theorem raise (e : Error) : Agrees (Checked.raise e : Checked α) (throw e) :=
  fun r hv => ⟨.error e, r, rfl, .refl hv, rfl⟩

theorem bind {m : Checked α} {p : BinReader.Read α} {f : α → Checked β}
    {g : α → BinReader.Read β} (h : Agrees m p) (hf : ∀ a, Agrees (f a) (g a)) :
    Agrees (m >>= f) (p >>= g) := by
  intro r hv
  obtain ⟨result, r', hm, hstay, hp⟩ := h r hv
  cases result with
  | error e =>
    refine ⟨.error e, r', bind_error hm, hstay, ?_⟩
    rw [StateT.run_bind, hp]
    rfl
  | ok a =>
    obtain ⟨result, r'', hf, hstay', hg⟩ := hf a r' hstay.valid
    refine ⟨result, r'', (bind_ok hm).trans hf, hstay.trans hstay', ?_⟩
    rw [run_bind_ok hp, hg]

end Agrees

theorem sizeDiff_eq {r : BinReader} (hv : Valid r) :
    sizeDiff r.payloadEnd r.pos = some (rest r).length := by
  rw [sizeDiff, if_pos hv.1, BinReader.rest_length hv]

theorem attempt_run {o : BinReader → Option α} {r : BinReader} {a : α} (h : o r = some a) :
    attempt o r = some (.ok a, r) := by
  rw [attempt, h]
  rfl

theorem check_run {r : BinReader} (hv : Valid r) (n : Nat) : check n r =
    if n > (rest r).length then some (.error ⟨.truncation, ascii "read past payload"⟩, r)
    else some (.ok (), r) := by
  have hpos : ¬ r.pos > r.payloadEnd := Nat.not_lt.mpr hv.1
  show (if r.pos > r.payloadEnd then _ else _ : Checked Unit) r = _
  rw [if_neg hpos, bind_ok (attempt_run (sizeDiff_eq hv))]
  split <;> rfl

/-- From inside the payload the access finds `f` of the next `n` octets. -/
def Finds (n : Nat) (access : Nat → Bytes → Nat → Option α) (f : Bytes → α) : Prop :=
  ∀ r : BinReader, Valid r → n ≤ (rest r).length →
    access r.payloadEnd r.data r.pos = some (f ((rest r).take n))

/-- Whatever the check lets through, the accesses behind it find in the payload. -/
theorem Finds.run {n : Nat} {access : Nat → Bytes → Nat → Option α} {f : Bytes → α}
    (h : Finds n access f) {r : BinReader} (hv : Valid r) : guarded n access r =
      if n > (rest r).length then some (.error ⟨.truncation, ascii "read past payload"⟩, r)
      else some (.ok (f ((rest r).take n)), skip n r) := by
  have hcheck := check_run hv n
  by_cases hn : n > (rest r).length
  · rw [if_pos hn] at hcheck ⊢
    exact bind_error hcheck
  · rw [if_neg hn] at hcheck ⊢
    have hfound := attempt_run (o := fun r => access r.payloadEnd r.data r.pos)
      (h r hv (Nat.not_lt.mp hn))
    exact (bind_ok hcheck).trans ((bind_ok hfound).trans rfl)

/-- The payload ahead, as the accesses see it. -/
theorem rest_take {r : BinReader} (hv : Valid r) {n : Nat} (hn : n ≤ (rest r).length) :
    (rest r).take n = (r.data.drop r.pos).take n ∧ r.pos + n ≤ r.payloadEnd ∧
      r.payloadEnd ≤ r.data.length := by
  have hlen := BinReader.rest_length hv
  obtain ⟨hpos, hend⟩ := hv
  refine ⟨?_, by omega, by omega⟩
  show ((r.data.take r.payloadEnd).drop r.pos).take n = _
  rw [List.drop_take, List.take_take, Nat.min_eq_left (by omega)]

end Checked

namespace BinReader

open Tape

/-- `u16`, which no decoder calls. -/
def u16 : Read UInt16 := do
  let bs ← bytes 2
  pure ⟨LittleEndian.orIn 0 0#16 bs⟩

/-- A guard that asks for what lies ahead, in either of the forms the source uses. -/
theorem ahead_run {q : BinReader → Prop} [DecidablePred q] (e : Error) {n : Nat} {r : BinReader}
    (hv : Valid r) (hq : q r ↔ n > (rest r).length) :
    (do let r ← get; throwIf (q r) e; advance n : Read Bytes).run r =
      if n > (rest r).length then .error e else .ok ((rest r).take n, skip n r) := by
  rw [guard_run]
  by_cases hn : n > (rest r).length
  · rw [if_pos (hq.mpr hn), if_pos hn]
  · rw [if_neg fun h => hn (hq.mp h), if_neg hn, advance_run hv (Nat.not_lt.mp hn)]

theorem bytes_run {r : BinReader} (hv : Valid r) (n : Nat) : (bytes n).run r =
    if n > (rest r).length then .error ⟨.truncation, ascii "read past payload"⟩
    else .ok ((rest r).take n, skip n r) := by
  refine ahead_run (q := fun r => r.pos > r.payloadEnd ∨ n > sizeSub r.payloadEnd r.pos) _ hv ?_
  have hpos := hv.1
  rw [rest_length hv, sizeSub, if_pos hpos]
  omega

theorem stringBody_run {r : BinReader} (hv : Valid r) (n : Nat) : (stringBody n).run r =
    if n > (rest r).length then .error ⟨.malformed, ascii "string length exceeds payload"⟩
    else .ok ((rest r).take n, skip n r) := by
  refine ahead_run (q := fun r => n > sizeSub r.payloadEnd r.pos) _ hv ?_
  rw [rest_length hv, sizeSub, if_pos hv.1]

end BinReader

namespace Checked

open Tape

/-- A guarded access to `n` octets is `bytes n` with what is made of the octets. -/
theorem Finds.agrees {n : Nat} {access : Nat → Bytes → Nat → Option α} {f : Bytes → α}
    (h : Finds n access f) :
    Agrees (guarded n access) (BinReader.bytes n >>= fun bs => pure (f bs)) := by
  intro r hv
  rw [h.run hv, StateT.run_bind, BinReader.bytes_run hv]
  by_cases hn : n > (rest r).length
  · rw [if_pos hn, if_pos hn]
    exact ⟨_, r, rfl, .refl hv, rfl⟩
  · rw [if_neg hn, if_neg hn]
    exact ⟨_, _, rfl, .skip hv (Nat.not_lt.mp hn), rfl⟩

theorem Finds.advances {n : Nat} {access : Nat → Bytes → Nat → Option α} {f : Bytes → α}
    (h : Finds n access f) {r r' : BinReader} (hv : Valid r) {v : α}
    (hrun : guarded n access r = some (.ok v, r')) :
    r' = skip n r ∧ n ≤ (rest r).length ∧ v = f ((rest r).take n) := by
  rw [h.run hv] at hrun
  by_cases hn : n > (rest r).length
  · rw [if_pos hn] at hrun
    cases hrun
  · rw [if_neg hn] at hrun
    cases hrun
    exact ⟨rfl, Nat.not_lt.mp hn, rfl⟩

theorem finds_elem : Finds 1 elemBelow fun bs => bs.headD 0 := by
  intro r hv hn
  obtain ⟨htake, hin, hbound⟩ := rest_take hv hn
  rw [elemBelow_eq (by omega) (by omega), htake,
    List.drop_eq_getElem_cons (by omega : r.pos < r.data.length)]
  rfl

theorem half_word (lo hi : UInt8) :
    lo.toUInt16 ||| hi.toUInt16 <<< 8 = (⟨LittleEndian.orIn 0 0#16 [lo, hi]⟩ : UInt16) := by
  apply UInt16.toBitVec_inj.mp
  simp [LittleEndian.orIn]

theorem finds_half : Finds 2
    (fun bound data pos => do
      let lo ← elemBelow bound data pos
      let hi ← elemBelow bound data (pos + 1)
      some (lo.toUInt16 ||| hi.toUInt16 <<< 8))
    fun bs => (⟨LittleEndian.orIn 0 0#16 bs⟩ : UInt16) := by
  intro r hv hn
  obtain ⟨htake, hin, hbound⟩ := rest_take hv hn
  dsimp only
  rw [elemBelow_eq (by omega) (by omega), elemBelow_eq (by omega) (by omega), htake,
    List.drop_eq_getElem_cons (by omega : r.pos < r.data.length),
    List.drop_eq_getElem_cons (by omega : r.pos + 1 < r.data.length)]
  exact congrArg some (half_word _ _)

theorem finds_word (w n : Nat) (mk : BitVec w → α) : Finds n
    (fun bound data pos => do
      let v ← orRange bound data pos 0 n 0#w
      some (mk v))
    fun bs => mk (LittleEndian.orIn 0 0#w bs) := by
  intro r hv hn
  obtain ⟨htake, hin, hbound⟩ := rest_take hv hn
  dsimp only
  rw [orRange_eq hbound (by omega), htake]
  rfl

theorem finds_range (n : Nat) :
    Finds n (fun bound data pos => copyRange bound data pos n) fun bs => bs := by
  intro r hv hn
  obtain ⟨htake, hin, hbound⟩ := rest_take hv hn
  dsimp only
  rw [copyRange_eq hbound hin, htake]

theorem stringBody_run {r : BinReader} (hv : Valid r) (n : Nat) : stringBody n r =
    if n > (rest r).length then
      some (.error ⟨.malformed, ascii "string length exceeds payload"⟩, r)
    else some (.ok ((rest r).take n), skip n r) := by
  unfold stringBody
  rw [bind_ok (attempt_run (sizeDiff_eq hv))]
  by_cases hn : n > (rest r).length
  · rw [if_pos hn, if_pos hn]
    rfl
  · rw [if_neg hn, if_neg hn, bind_ok (attempt_run (finds_range n r hv (Nat.not_lt.mp hn)))]
    rfl

theorem stringBody_agrees (n : Nat) : Agrees (stringBody n) (BinReader.stringBody n) := by
  intro r hv
  rw [stringBody_run hv, BinReader.stringBody_run hv]
  by_cases hn : n > (rest r).length
  · rw [if_pos hn, if_pos hn]
    exact ⟨_, r, rfl, .refl hv, rfl⟩
  · rw [if_neg hn, if_neg hn]
    exact ⟨_, _, rfl, .skip hv (Nat.not_lt.mp hn), rfl⟩

theorem bytes_agrees (n : Nat) : Agrees (bytes n) (BinReader.bytes n) := by
  have h := (finds_range n).agrees
  rwa [bind_pure] at h

theorem u32_agrees : Agrees u32 BinReader.u32 := (finds_word 32 4 UInt32.ofBitVec).agrees

theorem string_agrees : Agrees string BinReader.string :=
  u32_agrees.bind fun n => stringBody_agrees n.toNat

end Checked

/-- A call of the reader, with its argument. -/
inductive Call where
  | u8
  | u16
  | u32
  | u64
  | string
  | bytes (n : Nat)

namespace Call

def Result : Call → Type
  | u8 => UInt8
  | u16 => UInt16
  | u32 => UInt32
  | u64 => UInt64
  | string => Bytes
  | bytes _ => Bytes

/-- The call with its accesses. -/
def checked : (c : Call) → Checked c.Result
  | u8 => Checked.u8
  | u16 => Checked.u16
  | u32 => Checked.u32
  | u64 => Checked.u64
  | string => Checked.string
  | bytes n => Checked.bytes n

/-- The call as the decoders' readers make it. -/
def read : (c : Call) → BinReader.Read c.Result
  | u8 => BinReader.u8
  | u16 => BinReader.u16
  | u32 => BinReader.u32
  | u64 => BinReader.u64
  | string => BinReader.string
  | bytes n => BinReader.bytes n

/-- The octets that what a call returns was made of. -/
def width : (c : Call) → c.Result → Nat
  | u8, _ => 1
  | u16, _ => 2
  | u32, _ => 4
  | u64, _ => 8
  | string, s => 4 + List.length (α := UInt8) s
  | bytes _, v => List.length (α := UInt8) v

open Tape

theorem agrees (c : Call) : Checked.Agrees c.checked c.read := by
  cases c with
  | u8 => exact Checked.finds_elem.agrees
  | u16 => exact Checked.finds_half.agrees
  | u32 => exact Checked.u32_agrees
  | u64 => exact (Checked.finds_word 64 8 UInt64.ofBitVec).agrees
  | string => exact Checked.string_agrees
  | bytes n => exact Checked.bytes_agrees n

theorem advances (c : Call) {r r' : BinReader} (hv : Valid r) {v : c.Result}
    (h : c.checked r = some (.ok v, r')) : r'.pos = r.pos + c.width v := by
  cases c with
  | u8 =>
    obtain ⟨rfl, -⟩ := Checked.finds_elem.advances hv h
    rfl
  | u16 =>
    obtain ⟨rfl, -⟩ := Checked.finds_half.advances hv h
    rfl
  | u32 =>
    obtain ⟨rfl, -⟩ := (Checked.finds_word 32 4 UInt32.ofBitVec).advances hv h
    rfl
  | u64 =>
    obtain ⟨rfl, -⟩ := (Checked.finds_word 64 8 UInt64.ofBitVec).advances hv h
    rfl
  | bytes n =>
    obtain ⟨rfl, hn, hw⟩ := (Checked.finds_range n).advances hv h
    have hlen : List.length (α := UInt8) v = n := by
      rw [hw, List.length_take, Nat.min_eq_left hn]
    exact congrArg (r.pos + ·) hlen.symm
  | string =>
    have h : Checked.string r = some (.ok v, r') := h
    obtain ⟨result, r₁, hlen, hstay, -⟩ := Checked.u32_agrees r hv
    cases result with
    | error e =>
      rw [Checked.string, Checked.bind_error hlen] at h
      cases h
    | ok n =>
      obtain ⟨rfl, -⟩ := (Checked.finds_word 32 4 UInt32.ofBitVec).advances hv hlen
      rw [Checked.string, Checked.bind_ok hlen, Checked.stringBody_run hstay.valid] at h
      by_cases hn : n.toNat > (rest (skip 4 r)).length
      · rw [if_pos hn] at h
        cases h
      · rw [if_neg hn] at h
        cases h
        show r.pos + 4 + n.toNat = r.pos + (4 + ((rest (skip 4 r)).take n.toNat).length)
        rw [List.length_take, Nat.min_eq_left (Nat.not_lt.mp hn), Nat.add_assoc]

end Call

end AdapterFabric
