import AdapterFabric.Lib.RowMajor
import Mathlib.Algebra.Group.Nat.Defs
import Mathlib.Algebra.Ring.Int.Defs
import Mathlib.Logic.Basic
import Mathlib.Logic.ExistsUnique

/-!
# AdapterFabric.Cuda.Lora

The LoRA kernel and its launch (`cuda.hpp`, `cuda_backend.cpp`, `cuda_impl.cu`).

A thread's run is `none` once an operation of `int` has overflowed or an element lies outside its
buffer.

* `loraKernel_eq`: what a thread of an accepted launch does, and when.
* `lora_stays_inside_iff`: all threads stay inside and write every element once just when three
  products fit into `int` and the factors fit into their buffers.
-/

namespace AdapterFabric.Cuda

/-! ## The host -/

structure DeviceBuffer where
  ptr : UInt64 := 0
  bytes : UInt64 := 0
deriving DecidableEq

namespace DeviceBuffer

def valid (b : DeviceBuffer) : Bool := b.ptr != 0 && b.bytes > 0

/-- The number of floats held by the buffer. -/
def floats (b : DeviceBuffer) : ℕ := b.bytes.toNat / 4

end DeviceBuffer

/-- The arguments of `apply_lora`, for floats of type `F`. -/
structure LoraArgs (F : Type) where
  input : DeviceBuffer
  wup : DeviceBuffer
  wdown : DeviceBuffer
  output : DeviceBuffer
  M : Int32
  N : Int32
  R : Int32
  scale : F

/-- `<<<grid, block>>>` -/
structure Launch where
  gridX : UInt32
  gridY : UInt32
  blockX : UInt32
deriving DecidableEq

/-- The device behind the runtime: the launches it accepts, and whether synchronising with it after
one reports success. No device has a grid of more than 65535 blocks in `y`. -/
structure Device where
  accepts : Launch → Bool
  synchronize : Option Launch → Bool
  gridY_le : ∀ l, accepts l = true → l.gridY.toNat ≤ 65535

variable {F : Type}

/-- `lora_run`: what it returns, and what it has launched. -/
def loraRun (d : Device) (M N R : Int32) : Bool × Option Launch :=
  if M ≤ 0 ∨ N ≤ 0 ∨ R ≤ 0 then (false, none)
  else
    let l : Launch := ⟨M.toUInt32, ((N + 255) / 256).toUInt32, 256⟩
    let launched := if d.accepts l then some l else none
    (d.synchronize launched, launched)

def applyLora (d : Device) (args : LoraArgs F) : Bool × Option Launch :=
  if ¬ args.input.valid ∨ ¬ args.wup.valid ∨ ¬ args.wdown.valid ∨ ¬ args.output.valid then
    (false, none)
  else
    let need : UInt64 := args.M.toInt64.toUInt64 * args.N.toInt64.toUInt64 * 4
    if args.output.bytes < need ∨ args.input.bytes < need then (false, none)
    else loraRun d args.M args.N args.R

/-! ## The kernel -/

/-- An operation of `int`, whose result must be representable. -/
def int (z : Int) : Option Int := if -2 ^ 31 ≤ z ∧ z < 2 ^ 31 then some z else none

/-- `a * b + c` -/
def index (a b c : Int) : Option Int := do
  let p ← int (a * b)
  int (p + c)

/-- The address of `p[i]`, which must lie in the buffer. -/
def DeviceBuffer.element (p : DeviceBuffer) (i : Int) : Option ℕ :=
  if 0 ≤ i ∧ i < p.floats then some (p.ptr.toNat + 4 * i.toNat) else none

/-- `blockIdx` and `threadIdx` -/
structure Thread where
  blockX : UInt32
  blockY : UInt32
  threadX : UInt32
deriving DecidableEq

def Launch.Has (l : Launch) (t : Thread) : Prop :=
  t.blockX < l.gridX ∧ t.blockY < l.gridY ∧ t.threadX < l.blockX

section Kernel

variable [Zero F] [Add F] [Mul F] (mem : ℕ → F) (args : LoraArgs F)

/-- The loop over `r`, for `n` rounds. -/
def loraLoop (row j : Int) : (r : Int) → (n : ℕ) → F → Option F
  | _, 0, acc => some acc
  | r, n + 1, acc => do
    let i ← index row args.R.toInt r
    let down ← args.wdown.element i
    let k ← index r args.N.toInt j
    let up ← args.wup.element k
    loraLoop row j (r + 1) n (acc + mem down * mem up)

/-- `lora_kernel`: the index a thread stores at, if it stores at all, and the value it stores. -/
def loraKernel (l : Launch) (t : Thread) : Option (Option (Int × F)) :=
  let row := t.blockX.toInt32
  let j := (t.blockY * l.blockX + t.threadX).toInt32
  if j < args.N then do
    let acc ← loraLoop mem args row.toInt j.toInt 0 args.R.toInt.toNat 0
    let i ← index row.toInt args.N.toInt j.toInt
    let x ← args.input.element i
    let k ← index row.toInt args.N.toInt j.toInt
    let _ ← args.output.element k
    some (some (k, mem x + args.scale * acc))
  else some none

end Kernel

/-! ## Conversions -/

theorem toNat_toUInt32 (x : Int32) :
    (x.toUInt32.toNat : Int) = if 0 ≤ x.toInt then x.toInt else x.toInt + 2 ^ 32 := by
  have hcond := BitVec.toInt_eq_toNat_cond x.toBitVec
  rw [Int32.toInt_toBitVec, Int32.toNat_toBitVec] at hcond
  have := x.toUInt32.toNat_lt
  split at hcond <;> split <;> omega

theorem toInt_toInt32 {x : UInt32} (h : x.toNat < 2 ^ 31) : x.toInt32.toInt = x.toNat := by
  rw [← Int32.toInt_toBitVec, UInt32.toBitVec_toInt32]
  exact BitVec.toInt_eq_toNat_of_lt (by rw [UInt32.toNat_toBitVec]; omega)

theorem toNat_size {x : Int32} {n : ℕ} (h : x.toInt = n) : x.toInt64.toUInt64.toNat = n := by
  have hle : 0 ≤ x.toInt64 := by
    rw [Int64.le_iff_toInt_le, Int32.toInt_toInt64, h]
    exact Int.natCast_nonneg n
  rw [Int64.toNat_toUInt64_of_le hle, Int64.toNatClampNeg, Int32.toInt_toInt64, h]
  rfl

theorem blocks_toNat {x : Int32} {n : ℕ} (h : x.toInt = n)
    (hle : ((x + 255) / 256).toUInt32.toNat ≤ 65535) :
    ((x + 255) / 256).toUInt32.toNat = (n + 255) / 256 := by
  have hx := x.toInt_lt
  have hnat := toNat_toUInt32 ((x + 255) / 256)
  have h256 : (256 : Int32).toInt = 256 := by decide
  have h255 : (255 : Int32).toInt = 255 := by decide
  rw [Int32.toInt_div, Int32.toInt_add, h256, h255, h] at hnat
  rw [h] at hx
  by_cases hwrap : (n : Int) + 255 < 2 ^ 31
  · have hsum : ((n : Int) + 255).bmod (2 ^ 32) = n + 255 :=
      Int.bmod_eq_of_le (by omega) (by omega)
    have hquot : (((n : Int) + 255) / 256).bmod (2 ^ 32) = (n + 255) / 256 :=
      Int.bmod_eq_of_le (by omega) (by omega)
    rw [hsum, Int.tdiv_eq_ediv_of_nonneg (by omega), hquot, if_pos (by omega)] at hnat
    omega
  · -- the sum has wrapped, and a negative number of blocks is far above what a grid may have
    have hsum : ((n : Int) + 255).bmod (2 ^ 32) = -(2 ^ 32 - n - 255) := by
      rw [Int.bmod_def]
      split <;> omega
    have hquot : (-((2 ^ 32 - (n : Int) - 255) / 256)).bmod (2 ^ 32) =
        -((2 ^ 32 - (n : Int) - 255) / 256) := Int.bmod_eq_of_le (by omega) (by omega)
    rw [hsum, Int.neg_tdiv, Int.tdiv_eq_ediv_of_nonneg (by omega), hquot, if_neg (by omega)] at hnat
    omega

/-! ## Launches -/

/-- What is known of a launch: its grid, and that the two checked buffers are large enough. -/
structure Accepted (args : LoraArgs F) (l : Launch) (m n r : ℕ) : Prop where
  M : args.M.toInt = m
  N : args.N.toInt = n
  R : args.R.toInt = r
  M_pos : 0 < m
  N_pos : 0 < n
  R_pos : 0 < r
  gridX : l.gridX.toNat = m
  gridY : l.gridY.toNat = (n + 255) / 256
  gridY_le : l.gridY.toNat ≤ 65535
  blockX : l.blockX = 256
  input : m * n ≤ args.input.floats
  output : m * n ≤ args.output.floats

theorem pos_of_not_le {x : Int32} (h : ¬ x ≤ 0) : ∃ n : ℕ, x.toInt = n ∧ 0 < n := by
  have hpos : 0 < x.toInt := by
    rw [Int32.le_iff_toInt_le] at h
    exact Int.not_le.mp h
  obtain ⟨n, hn⟩ := Int.eq_ofNat_of_zero_le (Int.le_of_lt hpos)
  exact ⟨n, hn, by omega⟩

theorem loraRun_launch {d : Device} {M N R : Int32} {l : Launch}
    (h : (loraRun d M N R).2 = some l) :
    ¬ M ≤ 0 ∧ ¬ N ≤ 0 ∧ ¬ R ≤ 0 ∧ l = ⟨M.toUInt32, ((N + 255) / 256).toUInt32, 256⟩ ∧
      d.accepts l = true := by
  unfold loraRun at h
  by_cases hdim : M ≤ 0 ∨ N ≤ 0 ∨ R ≤ 0
  · rw [if_pos hdim] at h
    cases h
  · rw [if_neg hdim] at h
    have h : (if d.accepts ⟨M.toUInt32, ((N + 255) / 256).toUInt32, 256⟩ = true then
      some (⟨M.toUInt32, ((N + 255) / 256).toUInt32, 256⟩ : Launch) else none) = some l := h
    by_cases hacc : d.accepts ⟨M.toUInt32, ((N + 255) / 256).toUInt32, 256⟩ = true
    · rw [if_pos hacc] at h
      cases h
      exact ⟨fun h => hdim (.inl h), fun h => hdim (.inr (.inl h)),
        fun h => hdim (.inr (.inr h)), rfl, hacc⟩
    · rw [if_neg hacc] at h
      cases h

theorem le_floats {x y : Int32} {m n : ℕ} (hx : x.toInt = m) (hy : y.toInt = n)
    {b : DeviceBuffer} (h : ¬ b.bytes < x.toInt64.toUInt64 * y.toInt64.toUInt64 * 4) :
    m * n ≤ b.floats := by
  have hm := x.toInt_lt
  have hn := y.toInt_lt
  have hmul : m * n ≤ (2 ^ 31 - 1) * (2 ^ 31 - 1) := Nat.mul_le_mul (by omega) (by omega)
  rw [UInt64.lt_iff_toNat_lt, UInt64.toNat_mul, UInt64.toNat_mul, toNat_size hx, toNat_size hy,
    Nat.mod_eq_of_lt (by omega : m * n < 2 ^ 64),
    Nat.mod_eq_of_lt (by
      show m * n * 4 < 2 ^ 64
      omega)] at h
  have h : m * n * 4 ≤ b.bytes.toNat := Nat.not_lt.mp h
  rw [DeviceBuffer.floats]
  omega

theorem accepted_of_launch {d : Device} {args : LoraArgs F} {l : Launch}
    (h : (applyLora d args).2 = some l) : ∃ m n r, Accepted args l m n r := by
  unfold applyLora at h
  split at h
  · cases h
  · dsimp only at h
    split at h
    · cases h
    · rename_i hneed
      rw [not_or] at hneed
      obtain ⟨hM, hN, hR, rfl, hacc⟩ := loraRun_launch h
      obtain ⟨m, hm, hmpos⟩ := pos_of_not_le hM
      obtain ⟨n, hn, hnpos⟩ := pos_of_not_le hN
      obtain ⟨r, hr, hrpos⟩ := pos_of_not_le hR
      have hgrid := d.gridY_le _ hacc
      refine ⟨m, n, r, hm, hn, hr, hmpos, hnpos, hrpos, ?_, blocks_toNat hn hgrid, hgrid, rfl,
        le_floats hm hn hneed.2, le_floats hm hn hneed.1⟩
      have := toNat_toUInt32 args.M
      rw [hm, if_pos (Int.natCast_nonneg m)] at this
      exact_mod_cast this

/-! ## Threads -/

/-- The indices that are representable and lie in the buffer. -/
def DeviceBuffer.reach (p : DeviceBuffer) : ℕ := min (2 ^ 31) p.floats

theorem int_natCast (k : ℕ) : int k = if k < 2 ^ 31 then some (k : Int) else none := by
  unfold int
  by_cases hk : k < 2 ^ 31
  · rw [if_pos ⟨by omega, by omega⟩, if_pos hk]
  · rw [if_neg (by omega), if_neg hk]

theorem index_eq (a b c : ℕ) :
    index a b c = if a * b + c < 2 ^ 31 then some ((a * b + c : ℕ) : Int) else none := by
  have hmul : ((a : Int) * b) = ((a * b : ℕ) : Int) := by norm_cast
  rw [index, hmul, int_natCast]
  by_cases hprod : a * b < 2 ^ 31
  · have hsum : (((a * b : ℕ) : Int) + c) = ((a * b + c : ℕ) : Int) := by norm_cast
    rw [if_pos hprod, Option.bind_eq_bind, Option.bind_some, hsum, int_natCast]
  · rw [if_neg hprod, if_neg (by omega)]
    rfl

/-- An access goes on with the element, if its index is within reach. -/
theorem access_eq {β : Type} (p : DeviceBuffer) (a b c : ℕ) (f : Int → ℕ → Option β) :
    (do
      let i ← index a b c
      let x ← p.element i
      f i x) =
      if a * b + c < p.reach then
        f ((a * b + c : ℕ) : Int) (p.ptr.toNat + 4 * (a * b + c)) else none := by
  rw [index_eq]
  unfold DeviceBuffer.reach DeviceBuffer.element
  by_cases hint : a * b + c < 2 ^ 31
  · by_cases hin : a * b + c < p.floats
    · rw [if_pos hint, if_pos (by omega)]
      simp only [Option.bind_eq_bind, Option.bind_some]
      rw [if_pos ⟨Int.natCast_nonneg _, by exact_mod_cast hin⟩]
      rfl
    · rw [if_pos hint, if_neg (by omega)]
      simp only [Option.bind_eq_bind, Option.bind_some]
      rw [if_neg fun h => hin (by exact_mod_cast h.2)]
      rfl
  · rw [if_neg hint, if_neg (by omega)]
    rfl

section Kernel

variable [Add F] [Mul F] (mem : ℕ → F) {args : LoraArgs F} {m n r : ℕ}

/-- The loop ends just when every round finds its two elements. -/
theorem loraLoop_isSome (hN : args.N.toInt = n) (hR : args.R.toInt = r) (row j : ℕ) {rounds : ℕ} :
    ∀ {k : ℕ} {acc : F}, (loraLoop mem args row j k rounds acc).isSome = true ↔
      ∀ i, k ≤ i → i < k + rounds →
        row * r + i < args.wdown.reach ∧ i * n + j < args.wup.reach := by
  induction rounds with
  | zero =>
    intro k acc
    simp only [loraLoop, Option.isSome_some, true_iff]
    intro i hle hlt
    omega
  | succ rounds ih =>
    intro k acc
    have hsucc : ((k : Int) + 1) = ((k + 1 : ℕ) : Int) := by norm_cast
    rw [loraLoop, hR, hN, access_eq args.wdown row r k]
    by_cases hdown : row * r + k < args.wdown.reach
    · rw [if_pos hdown, access_eq args.wup k n j]
      by_cases hup : k * n + j < args.wup.reach
      · rw [if_pos hup, hsucc, ih]
        constructor
        · intro h i hle hlt
          rcases Nat.eq_or_lt_of_le hle with rfl | hle
          · exact ⟨hdown, hup⟩
          · exact h i hle (by omega)
        · intro h i hle hlt
          exact h i (by omega) (by omega)
      · rw [if_neg hup]
        constructor
        · intro h
          cases h
        · intro h
          exact absurd (h k (Nat.le_refl k) (by omega)).2 hup
    · rw [if_neg hdown]
      constructor
      · intro h
        cases h
      · intro h
        exact absurd (h k (Nat.le_refl k) (by omega)).1 hdown

end Kernel

/-! ### The grid -/

namespace Thread

def row (t : Thread) : ℕ := t.blockX.toNat

def col (t : Thread) : ℕ := t.blockY.toNat * 256 + t.threadX.toNat

end Thread

namespace Accepted

variable {args : LoraArgs F} {l : Launch} {m n r : ℕ}

theorem has_iff (h : Accepted args l m n r) (t : Thread) : l.Has t ↔
    t.row < m ∧ t.blockY.toNat < (n + 255) / 256 ∧ t.threadX.toNat < 256 := by
  unfold Launch.Has Thread.row
  rw [UInt32.lt_iff_toNat_lt, UInt32.lt_iff_toNat_lt, UInt32.lt_iff_toNat_lt, h.gridX, h.gridY,
    h.blockX]
  rfl

theorem exists_thread (h : Accepted args l m n r) {i j : ℕ} (hi : i < m) (hj : j < n) :
    ∃ t, l.Has t ∧ t.row = i ∧ t.col = j := by
  have hm := args.M.toInt_lt
  have hgrid := h.gridY_le
  rw [h.M] at hm
  rw [h.gridY] at hgrid
  obtain ⟨y, x, hy, hx, rfl⟩ :=
    RowMajor.exists_of_lt (Nat.lt_of_lt_of_le hj (RowMajor.le_blocks (by omega : 0 < 256)))
  have hrow : (UInt32.ofNat i).toNat = i := UInt32.toNat_ofNat_of_lt' (by show i < 2 ^ 32; omega)
  have hblock : (UInt32.ofNat y).toNat = y := UInt32.toNat_ofNat_of_lt' (by show y < 2 ^ 32; omega)
  have hthread : (UInt32.ofNat x).toNat = x :=
    UInt32.toNat_ofNat_of_lt' (by show x < 2 ^ 32; omega)
  refine ⟨⟨.ofNat i, .ofNat y, .ofNat x⟩, (h.has_iff _).mpr ⟨?_, ?_, ?_⟩, hrow, ?_⟩
  · show (UInt32.ofNat i).toNat < m
    rwa [hrow]
  · show (UInt32.ofNat y).toNat < _
    rwa [hblock]
  · show (UInt32.ofNat x).toNat < 256
    rwa [hthread]
  · show (UInt32.ofNat y).toNat * 256 + (UInt32.ofNat x).toNat = _
    rw [hblock, hthread]

theorem thread_ext (h : Accepted args l m n r) {t t' : Thread} (ht : l.Has t) (ht' : l.Has t')
    (hrow : t.row = t'.row) (hcol : t.col = t'.col) : t = t' := by
  obtain ⟨hy, hx⟩ :=
    RowMajor.inj ((h.has_iff t).mp ht).2.2 ((h.has_iff t').mp ht').2.2 hcol
  cases t
  cases t'
  exact congr (congr (congrArg Thread.mk (UInt32.toNat_inj.mp hrow)) (UInt32.toNat_inj.mp hy))
    (UInt32.toNat_inj.mp hx)

/-- The unsigned sum of an accepted launch does not wrap. -/
theorem col_toInt (h : Accepted args l m n r) {t : Thread} (ht : l.Has t) :
    ((t.blockY * l.blockX + t.threadX).toInt32).toInt = t.col := by
  obtain ⟨-, hy, hx⟩ := (h.has_iff t).mp ht
  have hgrid := h.gridY_le
  rw [h.gridY] at hgrid
  have hcol : t.col < 2 ^ 31 := by
    unfold Thread.col
    omega
  have hsum : (t.blockY * l.blockX + t.threadX).toNat = t.col := by
    rw [UInt32.toNat_add, UInt32.toNat_mul, h.blockX]
    show (t.blockY.toNat * 256 % 2 ^ 32 + t.threadX.toNat) % 2 ^ 32 = _
    unfold Thread.col at hcol ⊢
    omega
  rw [toInt_toInt32 (by omega), hsum]

theorem row_toInt (h : Accepted args l m n r) {t : Thread} (ht : l.Has t) :
    t.blockX.toInt32.toInt = t.row := by
  have hm := args.M.toInt_lt
  rw [h.M] at hm
  have hrow := ((h.has_iff t).mp ht).1
  exact toInt_toInt32 (by show t.row < 2 ^ 31; omega)

end Accepted

section Kernel

variable [Zero F] [Add F] [Mul F] (mem : ℕ → F) {args : LoraArgs F} {l : Launch} {m n r : ℕ}

/-- A thread in front of a column goes through the loop, and through one element of the input and
of the output. -/
theorem loraKernel_eq (h : Accepted args l m n r) {t : Thread} (ht : l.Has t) :
    loraKernel mem args l t =
      if t.col < n then
        (loraLoop mem args t.row t.col 0 r 0).bind fun acc =>
          if t.row * n + t.col < args.input.reach then
            if t.row * n + t.col < args.output.reach then
              some (some (((t.row * n + t.col : ℕ) : Int),
                mem (args.input.ptr.toNat + 4 * (t.row * n + t.col)) + args.scale * acc))
            else none
          else none
      else some none := by
  unfold loraKernel
  dsimp only
  have hlt : (t.blockY * l.blockX + t.threadX).toInt32 < args.N ↔ t.col < n := by
    rw [Int32.lt_iff_toInt_lt, h.col_toInt ht, h.N]
    omega
  by_cases hcol : t.col < n
  · rw [if_pos (hlt.mpr hcol), if_pos hcol, h.col_toInt ht, h.row_toInt ht, h.R, h.N]
    show (loraLoop mem args t.row t.col 0 r 0).bind _ = _
    refine congrArg _ (funext fun acc => ?_)
    rw [access_eq args.input t.row n t.col]
    refine if_congr Iff.rfl ?_ rfl
    exact access_eq args.output t.row n t.col _
  · rw [if_neg fun h => hcol (hlt.mp h), if_neg hcol]

theorem loraKernel_isSome (h : Accepted args l m n r) {t : Thread} (ht : l.Has t) :
    (loraKernel mem args l t).isSome = true ↔
      (t.col < n → (∀ i < r, t.row * r + i < args.wdown.reach ∧ i * n + t.col < args.wup.reach) ∧
        t.row * n + t.col < args.input.reach ∧ t.row * n + t.col < args.output.reach) := by
  have hloop : (loraLoop mem args t.row t.col ((0 : ℕ) : Int) r 0).isSome = true ↔ _ :=
    loraLoop_isSome mem h.N h.R t.row t.col
  rw [loraKernel_eq mem h ht]
  by_cases hcol : t.col < n
  · rw [if_pos hcol]
    constructor
    · intro hsome hcol'
      obtain ⟨res, hres⟩ := Option.isSome_iff_exists.mp hsome
      obtain ⟨acc, hacc, hres⟩ := Option.bind_eq_some_iff.mp hres
      refine ⟨fun i hi => ?_, ?_⟩
      · exact hloop.mp (Option.isSome_iff_exists.mpr ⟨acc, hacc⟩) i (Nat.zero_le i) (by omega)
      · split at hres
        · rename_i hin
          split at hres
          · rename_i hout
            exact ⟨hin, hout⟩
          · cases hres
        · cases hres
    · intro hall
      obtain ⟨hrounds, hin, hout⟩ := hall hcol
      obtain ⟨acc, hacc⟩ := Option.isSome_iff_exists.mp
        (hloop.mpr fun i _ hi => hrounds i (by omega))
      have hacc : loraLoop mem args t.row t.col 0 r 0 = some acc := hacc
      rw [hacc, Option.bind_some, if_pos hin, if_pos hout]
      rfl
  · rw [if_neg hcol]
    exact ⟨fun _ hcol' => absurd hcol' hcol, fun _ => rfl⟩

/-- Whatever a thread stores goes to its own row and column. -/
theorem loraKernel_stores (h : Accepted args l m n r) {t : Thread} (ht : l.Has t) {i : Int} {v : F}
    (hstore : loraKernel mem args l t = some (some (i, v))) :
    t.col < n ∧ i = ((t.row * n + t.col : ℕ) : Int) := by
  rw [loraKernel_eq mem h ht] at hstore
  by_cases hcol : t.col < n
  · rw [if_pos hcol] at hstore
    obtain ⟨acc, -, hstore⟩ := Option.bind_eq_some_iff.mp hstore
    split at hstore
    · split at hstore
      · cases hstore
        exact ⟨hcol, rfl⟩
      · cases hstore
    · cases hstore
  · rw [if_neg hcol] at hstore
    cases hstore

theorem exists_store (h : Accepted args l m n r) {t : Thread} (ht : l.Has t) (hcol : t.col < n)
    (hsome : (loraKernel mem args l t).isSome = true) :
    ∃ v, loraKernel mem args l t = some (some (((t.row * n + t.col : ℕ) : Int), v)) := by
  obtain ⟨res, hres⟩ := Option.isSome_iff_exists.mp hsome
  have hbind := hres
  rw [loraKernel_eq mem h ht, if_pos hcol] at hbind
  obtain ⟨acc, -, hbind⟩ := Option.bind_eq_some_iff.mp hbind
  rw [hres]
  split at hbind
  · split at hbind
    · exact ⟨_, hbind.symm⟩
    · cases hbind
  · cases hbind

end Kernel

/-! ## All threads -/

/-- Three products fit into `int`, and the two factors into their buffers. -/
structure LoraArgs.Fits (args : LoraArgs F) : Prop where
  outIndex : args.M.toInt * args.N.toInt ≤ 2 ^ 31
  downIndex : args.M.toInt * args.R.toInt ≤ 2 ^ 31
  upIndex : args.R.toInt * args.N.toInt ≤ 2 ^ 31
  down : args.M.toInt * args.R.toInt ≤ args.wdown.floats
  up : args.R.toInt * args.N.toInt ≤ args.wup.floats

/-- No thread overflows an index or leaves a buffer, and one thread stores at each element of the
output. -/
structure StaysInside [Zero F] [Add F] [Mul F] (mem : ℕ → F) (args : LoraArgs F) (l : Launch) :
    Prop where
  inside : ∀ t, l.Has t → (loraKernel mem args l t).isSome = true
  once : ∀ i j : ℕ, i < args.M.toInt → j < args.N.toInt →
    ∃! t, l.Has t ∧ ∃ v, loraKernel mem args l t = some (some (i * args.N.toInt + j, v))

namespace Accepted

variable {args : LoraArgs F} {l : Launch} {m n r : ℕ}

theorem fits_iff (h : Accepted args l m n r) : args.Fits ↔
    m * r ≤ args.wdown.reach ∧ r * n ≤ args.wup.reach ∧ m * n ≤ args.input.reach ∧
      m * n ≤ args.output.reach := by
  have hin := h.input
  have hout := h.output
  unfold DeviceBuffer.reach
  constructor
  · rintro ⟨hmn, hmr, hrn, hdown, hup⟩
    simp only [h.M, h.N, h.R] at hmn hmr hrn hdown hup
    norm_cast at hmn hmr hrn hdown hup
    omega
  · rintro ⟨hdown, hup, hmn, -⟩
    refine ⟨?_, ?_, ?_, ?_, ?_⟩ <;> simp only [h.M, h.N, h.R] <;> norm_cast <;> omega

theorem inside_iff [Zero F] [Add F] [Mul F] (mem : ℕ → F) (h : Accepted args l m n r) :
    (∀ t, l.Has t → (loraKernel mem args l t).isSome = true) ↔ args.Fits := by
  rw [h.fits_iff, ← RowMajor.forall_lt_iff h.M_pos h.R_pos,
    ← RowMajor.forall_lt_iff h.R_pos h.N_pos, ← RowMajor.forall_lt_iff h.M_pos h.N_pos,
    ← RowMajor.forall_lt_iff h.M_pos h.N_pos]
  constructor
  · intro hall
    have key : ∀ i < m, ∀ j < n,
        (∀ k < r, i * r + k < args.wdown.reach ∧ k * n + j < args.wup.reach) ∧
          i * n + j < args.input.reach ∧ i * n + j < args.output.reach := by
      intro i hi j hj
      obtain ⟨t, ht, rfl, rfl⟩ := h.exists_thread hi hj
      exact (loraKernel_isSome mem h ht).mp (hall t ht) hj
    refine ⟨fun i hi k hk => ((key i hi 0 h.N_pos).1 k hk).1,
      fun k hk j hj => ((key 0 h.M_pos j hj).1 k hk).2, fun i hi j hj => (key i hi j hj).2.1,
      fun i hi j hj => (key i hi j hj).2.2⟩
  · rintro ⟨hdown, hup, hin, hout⟩ t ht
    have hrow := ((h.has_iff t).mp ht).1
    refine (loraKernel_isSome mem h ht).mpr fun hcol => ?_
    exact ⟨fun k hk => ⟨hdown _ hrow k hk, hup k hk _ hcol⟩, hin _ hrow _ hcol, hout _ hrow _ hcol⟩

/-- Where every thread stays inside, each element has one thread that stores at it. -/
theorem once [Zero F] [Add F] [Mul F] (mem : ℕ → F) (h : Accepted args l m n r)
    (hall : ∀ t, l.Has t → (loraKernel mem args l t).isSome = true) {i j : ℕ}
    (hi : i < args.M.toInt) (hj : j < args.N.toInt) :
    ∃! t, l.Has t ∧ ∃ v, loraKernel mem args l t = some (some (i * args.N.toInt + j, v)) := by
  rw [h.M] at hi
  rw [h.N] at hj ⊢
  norm_cast at hi hj
  obtain ⟨t, ht, rfl, rfl⟩ := h.exists_thread hi hj
  refine ⟨t, ⟨ht, ?_⟩, ?_⟩
  · exact exists_store mem h ht hj (hall t ht)
  · rintro t' ⟨ht', v, hstore⟩
    obtain ⟨hcol, heq⟩ := loraKernel_stores mem h ht' hstore
    norm_cast at heq
    obtain ⟨hrow, hcol⟩ := RowMajor.inj hj hcol heq
    exact h.thread_ext ht' ht hrow.symm hcol.symm

end Accepted

/-- The check of the sizes leaves out the two factors, and the kernel computes its indices in
`int`. -/
theorem lora_stays_inside_iff [Zero F] [Add F] [Mul F] (d : Device) (mem : ℕ → F)
    (args : LoraArgs F) (l : Launch) (h : (applyLora d args).2 = some l) :
    StaysInside mem args l ↔ args.Fits := by
  obtain ⟨m, n, r, hacc⟩ := accepted_of_launch h
  constructor
  · intro hstays
    exact (hacc.inside_iff mem).mp hstays.inside
  · intro hfits
    have hall := (hacc.inside_iff mem).mpr hfits
    exact ⟨hall, fun i j hi hj => hacc.once mem hall hi hj⟩

/-- The limits on grids and blocks, on a device without errors. -/
def sampleDevice : Device where
  accepts l := decide (0 < l.gridX.toNat ∧ l.gridX.toNat ≤ 2 ^ 31 - 1 ∧ 0 < l.gridY.toNat ∧
    l.gridY.toNat ≤ 65535 ∧ 0 < l.blockX.toNat ∧ l.blockX.toNat ≤ 1024)
  synchronize _ := true
  gridY_le := by
    intro l h
    rw [decide_eq_true_iff] at h
    exact h.2.2.2.1

/-- One row of two columns and rank one, with `up` octets for the two floats of `wup`. -/
def sampleArgs (up : UInt64) : LoraArgs Int :=
  { input := ⟨256, 8⟩, wup := ⟨512, up⟩, wdown := ⟨768, 4⟩, output := ⟨1024, 8⟩,
    M := 1, N := 2, R := 1, scale := 1 }

theorem lora_stays_inside_iff_sample :
    StaysInside (fun _ => 0) (sampleArgs 8) ⟨1, 1, 256⟩ ↔ (sampleArgs 8).Fits :=
  lora_stays_inside_iff sampleDevice _ (sampleArgs 8) _ (by decide +kernel)

/-- Half of `wup` is missing, the launch goes ahead, and its second thread reads past the buffer. -/
theorem lora_stays_inside_counterexample :
    (applyLora sampleDevice (sampleArgs 4)).2 = some ⟨1, 1, 256⟩ ∧
      ¬ StaysInside (fun _ => 0) (sampleArgs 4) ⟨1, 1, 256⟩ := by
  refine ⟨by decide +kernel, fun h => ?_⟩
  have hout : loraKernel (fun _ => 0) (sampleArgs 4) ⟨1, 1, 256⟩ ⟨0, 0, 1⟩ = none := by
    decide +kernel
  have hinside := h.inside ⟨0, 0, 1⟩ ⟨by decide, by decide, by decide⟩
  rw [hout] at hinside
  cases hinside

end AdapterFabric.Cuda
