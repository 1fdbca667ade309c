import AdapterFabric.Cuda.Lora
import AdapterFabric.Lib.Footprint
import Mathlib.Data.Finset.Range

/-!
# AdapterFabric.Cuda.Launch

The threads of a launch, access by access and in any order (`cuda_impl.cu`).

* `alone_thread`: a thread alone does what `loraKernel` says.
* `apart_launch`: no thread stores where another one loads or stores.
* `lora_launch`: in every interleaving the output comes to what the loops of the host compute.
-/

namespace AdapterFabric.Cuda

open Interleave Footprint

variable {F : Type}

/-! ## Threads -/

/-- The address of `p[a * b + c]`. -/
@[irreducible] def DeviceBuffer.at (p : DeviceBuffer) (a b c : Int) : Option ℕ := do
  let i ← index a b c
  p.element i

/-- Loads `p[a * b + c]`. Nothing is known of a thread that may not. -/
def loadAt (p : DeviceBuffer) (a b c : Int) (k : F → Program ℕ F (Option Unit)) :
    Program ℕ F (Option Unit) :=
  match p.at a b c with
  | none => .done none
  | some x => .perform (.load x) k

theorem loadAt_eq (p : DeviceBuffer) (a b c : Int) (k : F → Program ℕ F (Option Unit)) :
    loadAt p a b c k = (p.at a b c).elim (.done none) fun x => .perform (.load x) k := by
  unfold loadAt
  cases p.at a b c with
  | none => rfl
  | some x => rfl

/-- Stores `v` at `p[a * b + c]`, and ends. -/
def storeAt (p : DeviceBuffer) (a b c : Int) (v : F) : Program ℕ F (Option Unit) :=
  match p.at a b c with
  | none => .done none
  | some x => .perform (.store x v) fun _ => .done (some ())

theorem storeAt_eq (p : DeviceBuffer) (a b c : Int) (v : F) : storeAt p a b c v =
    (p.at a b c).elim (.done none) fun x => .perform (.store x v) fun _ => .done (some ()) := by
  unfold storeAt
  cases p.at a b c with
  | none => rfl
  | some x => rfl

theorem DeviceBuffer.at_eq (p : DeviceBuffer) (a b c : ℕ) : p.at a b c =
    if a * b + c < p.reach then some (p.ptr.toNat + 4 * (a * b + c)) else none := by
  rw [← access_eq p a b c fun _ x => some x, DeviceBuffer.at]
  cases index a b c with
  | none => rfl
  | some i => simp

section Threads

variable [Add F] [Mul F] (args : LoraArgs F)

/-- The loop over `r`, for `n` rounds. -/
def threadLoop (row j : Int) (k : F → Program ℕ F (Option Unit)) :
    (r : Int) → (n : ℕ) → F → Program ℕ F (Option Unit)
  | _, 0, acc => k acc
  | r, n + 1, acc =>
    loadAt args.wdown row args.R.toInt r fun down =>
      loadAt args.wup r args.N.toInt j fun up => threadLoop row j k (r + 1) n (acc + down * up)

theorem alone_threadLoop (row j : Int) (k : F → Program ℕ F (Option Unit)) (m : ℕ → F) {n : ℕ} :
    ∀ {r : Int} {acc : F}, alone (threadLoop args row j k r n acc) m =
      (loraLoop m args row j r n acc).elim (none, m) fun acc => alone (k acc) m := by
  induction n with
  | zero =>
    intro r acc
    rfl
  | succ n ih =>
    intro r acc
    rw [threadLoop, loadAt_eq, loraLoop, DeviceBuffer.at]
    cases index row args.R.toInt r with
    | none => rfl
    | some i =>
      simp only [Option.bind_eq_bind, Option.bind_some]
      cases args.wdown.element i with
      | none => rfl
      | some down =>
        simp only [Option.elim_some, Option.bind_some, loadAt_eq, DeviceBuffer.at]
        cases index r args.N.toInt j with
        | none => rfl
        | some i =>
          simp only [Option.bind_eq_bind, Option.bind_some]
          cases args.wup.element i with
          | none => rfl
          | some up => exact ih

variable [Zero F]

/-- `lora_kernel`, access by access. -/
def threadProgram (l : Launch) (t : Thread) : Program ℕ F (Option Unit) :=
  let row := t.blockX.toInt32
  let j := (t.blockY * l.blockX + t.threadX).toInt32
  if j < args.N then
    threadLoop args row.toInt j.toInt (fun acc =>
      loadAt args.input row.toInt args.N.toInt j.toInt fun x =>
        storeAt args.output row.toInt args.N.toInt j.toInt (x + args.scale * acc)) 0
      args.R.toInt.toNat 0
  else .done (some ())

/-- What a thread leaves behind alone: nothing is known, or it has stored one element at most. -/
def after (m : ℕ → F) : Option (Option (Int × F)) → Option Unit × (ℕ → F)
  | none => (none, m)
  | some none => (some (), m)
  | some (some (i, v)) => (some (), Function.update m (args.output.ptr.toNat + 4 * i.toNat) v)

theorem alone_thread {l : Launch} {m n r : ℕ} (h : Accepted args l m n r) {t : Thread}
    (ht : l.Has t) (mem : ℕ → F) :
    alone (threadProgram args l t) mem = after args mem (loraKernel mem args l t) := by
  rw [loraKernel_eq mem h ht]
  have hlt : (t.blockY * l.blockX + t.threadX).toInt32 < args.N ↔ t.col < n := by
    rw [Int32.lt_iff_toInt_lt, h.col_toInt ht, h.N]
    omega
  unfold threadProgram
  dsimp only
  by_cases hcol : t.col < n
  · rw [if_pos (hlt.mpr hcol), if_pos hcol, h.col_toInt ht, h.row_toInt ht, h.R, h.N,
      alone_threadLoop, Int.toNat_natCast]
    cases loraLoop mem args t.row t.col 0 r 0 with
    | none => rfl
    | some acc =>
      simp only [Option.elim_some, Option.bind_some, loadAt_eq, storeAt_eq, args.input.at_eq,
        args.output.at_eq]
      by_cases hin : t.row * n + t.col < args.input.reach
      · rw [if_pos hin, if_pos hin]
        by_cases hout : t.row * n + t.col < args.output.reach
        · rw [if_pos hout, if_pos hout]
          rfl
        · rw [if_neg hout, if_neg hout]
          rfl
      · rw [if_neg hin, if_neg hin]
        rfl
  · rw [if_neg fun hj => hcol (hlt.mp hj), if_neg hcol]
    rfl

end Threads

/-! ## Footprints -/

/-- The addresses of the elements of a buffer. -/
def DeviceBuffer.cells (p : DeviceBuffer) : Set ℕ :=
  {a | ∃ i < p.floats, a = p.ptr.toNat + 4 * i}

theorem DeviceBuffer.mem_cells {p : DeviceBuffer} {i : ℕ} (h : i < p.reach) :
    p.ptr.toNat + 4 * i ∈ p.cells :=
  ⟨i, Nat.lt_of_lt_of_le h (Nat.min_le_right _ _), rfl⟩

/-- The two share no byte. -/
def DeviceBuffer.Disjoint (p q : DeviceBuffer) : Prop :=
  p.ptr.toNat + p.bytes.toNat ≤ q.ptr.toNat ∨ q.ptr.toNat + q.bytes.toNat ≤ p.ptr.toNat

theorem DeviceBuffer.Disjoint.notMem {p q : DeviceBuffer} (h : p.Disjoint q) {a : ℕ}
    (ha : a ∈ p.cells) : a ∉ q.cells := by
  rintro ⟨j, hj, hja⟩
  obtain ⟨i, hi, rfl⟩ := ha
  unfold floats at hi hj
  rcases h with h | h
  · omega
  · omega

namespace LoraArgs

variable (args : LoraArgs F)

/-- What the threads load. -/
def loads : Set ℕ := args.input.cells ∪ args.wup.cells ∪ args.wdown.cells

/-- Where a thread stores. -/
def stores (n : ℕ) (t : Thread) : Set ℕ :=
  {a | t.col < n ∧ t.row * n + t.col < args.output.reach ∧
    a = args.output.ptr.toNat + 4 * (t.row * n + t.col)}

/-- The output is apart from what is loaded. -/
structure Separate : Prop where
  input : args.output.Disjoint args.input
  wup : args.output.Disjoint args.wup
  wdown : args.output.Disjoint args.wdown

end LoraArgs

theorem keeps_loadAt {R W : Set ℕ} {p : DeviceBuffer} {a b c : ℕ}
    {k : F → Program ℕ F (Option Unit)} (hp : p.cells ⊆ R) (hk : ∀ x, Keeps R W (k x)) :
    Keeps R W (loadAt p a b c k) := by
  rw [loadAt_eq, p.at_eq]
  by_cases hreach : a * b + c < p.reach
  · rw [if_pos hreach]
    exact keeps_load (.inl (hp (DeviceBuffer.mem_cells hreach))) hk
  · rw [if_neg hreach]
    exact keeps_done none

section Keeps

variable [Add F] [Mul F] {args : LoraArgs F} {l : Launch} {m n r : ℕ}

theorem keeps_threadLoop {R W : Set ℕ} (hN : args.N.toInt = n) (hR : args.R.toInt = r)
    (hup : args.wup.cells ⊆ R) (hdown : args.wdown.cells ⊆ R) (row j : ℕ)
    {k : F → Program ℕ F (Option Unit)} (hk : ∀ x, Keeps R W (k x)) {rounds : ℕ} :
    ∀ {i : ℕ} {acc : F}, Keeps R W (threadLoop args row j k i rounds acc) := by
  induction rounds with
  | zero =>
    intro i acc
    rw [threadLoop]
    exact hk acc
  | succ rounds ih =>
    intro i acc
    have hsucc : ((i : Int) + 1) = ((i + 1 : ℕ) : Int) := by norm_cast
    rw [threadLoop, hR, hN, hsucc]
    exact keeps_loadAt hdown fun down => keeps_loadAt hup fun up => ih

variable [Zero F]

theorem keeps_thread (h : Accepted args l m n r) {t : Thread} (ht : l.Has t) :
    Keeps args.loads (args.stores n t) (threadProgram args l t) := by
  have hin : args.input.cells ⊆ args.loads := fun a ha => .inl (.inl ha)
  have hup : args.wup.cells ⊆ args.loads := fun a ha => .inl (.inr ha)
  have hdown : args.wdown.cells ⊆ args.loads := fun a ha => .inr ha
  unfold threadProgram
  dsimp only
  by_cases hj : (t.blockY * l.blockX + t.threadX).toInt32 < args.N
  · have hcol : t.col < n := by
      rw [Int32.lt_iff_toInt_lt, h.col_toInt ht, h.N] at hj
      omega
    rw [if_pos hj, h.col_toInt ht, h.row_toInt ht]
    have hzero : (0 : Int) = ((0 : ℕ) : Int) := rfl
    rw [hzero]
    refine keeps_threadLoop h.N h.R hup hdown t.row t.col fun acc => ?_
    rw [h.N]
    refine keeps_loadAt hin fun x => ?_
    rw [storeAt_eq, args.output.at_eq]
    by_cases hout : t.row * n + t.col < args.output.reach
    · rw [if_pos hout]
      exact keeps_store ⟨hcol, hout, rfl⟩ (keeps_done _)
    · rw [if_neg hout]
      trivial
  · rw [if_neg hj]
    trivial

end Keeps

/-! ## Launches -/

namespace Thread

/-- The threads, numbered. -/
def number (t : Thread) : ℕ :=
  (t.blockX.toNat * 2 ^ 32 + t.blockY.toNat) * 2 ^ 32 + t.threadX.toNat

def ofNumber (k : ℕ) : Thread := ⟨.ofNat (k / 2 ^ 32 / 2 ^ 32), .ofNat (k / 2 ^ 32), .ofNat k⟩

theorem ofNumber_number (t : Thread) : ofNumber t.number = t := by
  have hx := t.threadX.toNat_lt
  have hy := t.blockY.toNat_lt
  have hz := t.blockX.toNat_lt
  obtain ⟨x, y, z⟩ := t
  simp only [number] at hx hy hz ⊢
  unfold ofNumber
  congr 1
  · apply UInt32.toNat_inj.mp
    rw [UInt32.toNat_ofNat']
    omega
  · apply UInt32.toNat_inj.mp
    rw [UInt32.toNat_ofNat']
    omega
  · apply UInt32.toNat_inj.mp
    rw [UInt32.toNat_ofNat']
    omega

theorem number_lt (t : Thread) : t.number < 2 ^ 96 := by
  have hx := t.threadX.toNat_lt
  have hy := t.blockY.toNat_lt
  have hz := t.blockX.toNat_lt
  unfold number
  omega

end Thread

/-- Where the thread with a number stores. -/
def LoraArgs.storesAt (args : LoraArgs F) (l : Launch) (n k : ℕ) : Set ℕ :=
  {a | ∃ t, l.Has t ∧ t.number = k ∧ a ∈ args.stores n t}

theorem apart_launch {args : LoraArgs F} {l : Launch} {m n r : ℕ} (h : Accepted args l m n r)
    (hsep : args.Separate) : Apart args.loads (args.storesAt l n) where
  shared := by
    rintro k a ha ⟨t, -, -, -, hout, rfl⟩
    have hcell := DeviceBuffer.mem_cells hout
    rcases ha with (ha | ha) | ha
    · exact hsep.input.notMem hcell ha
    · exact hsep.wup.notMem hcell ha
    · exact hsep.wdown.notMem hcell ha
  own := by
    rintro k k' hne a ⟨t, ht, rfl, hcol, -, rfl⟩ ⟨t', ht', rfl, hcol', -, heq⟩
    have hindex : t.row * n + t.col = t'.row * n + t'.col := by omega
    obtain ⟨hrow, hcols⟩ := RowMajor.inj hcol hcol' hindex
    exact hne (congrArg Thread.number (h.thread_ext ht ht' hrow hcols))

instance (l : Launch) (t : Thread) : Decidable (l.Has t) := by
  unfold Launch.Has
  infer_instance

section Launched

variable [Zero F] [Add F] [Mul F] (args : LoraArgs F) (l : Launch) (mem : ℕ → F)

/-- A launch whose threads have not yet done anything. -/
def launched : Config (ℕ → F) (Access ℕ F) Answer (Option Unit) where
  shared := mem
  threads k :=
    let t := Thread.ofNumber k
    if l.Has t ∧ t.number = k then some (threadProgram args l t) else none

variable {args l mem}

theorem launched_iff {k : ℕ} {p : Program ℕ F (Option Unit)} :
    (launched args l mem).threads k = some p ↔
      ∃ t, l.Has t ∧ t.number = k ∧ threadProgram args l t = p := by
  unfold launched
  dsimp only
  constructor
  · intro h
    split at h
    · rename_i hk
      exact ⟨_, hk.1, hk.2, Option.some.inj h⟩
    · cases h
  · rintro ⟨t, ht, rfl, rfl⟩
    rw [Thread.ofNumber_number, if_pos ⟨ht, rfl⟩]

end Launched

/-! ### Values -/

/-- An element of a buffer. -/
def DeviceBuffer.view (p : DeviceBuffer) (mem : ℕ → F) (k : ℕ) : F := mem (p.ptr.toNat + 4 * k)

section Values

variable [Zero F] [Add F] [Mul F]

/-- `ref[i*N + j]` of the host. -/
def reference (x wup wdown : ℕ → F) (n r : ℕ) (scale : F) (i j : ℕ) : F :=
  x (i * n + j) +
    scale * (List.range r).foldl (fun acc k => acc + wdown (i * r + k) * wup (k * n + j)) 0

variable {args : LoraArgs F} {l : Launch} {m n r : ℕ}

omit [Zero F] in
theorem loraLoop_eq (hN : args.N.toInt = n) (hR : args.R.toInt = r) (mem : ℕ → F)
    (row j rounds : ℕ) : ∀ (k : ℕ) (acc : F),
      (∀ i, k ≤ i → i < k + rounds →
        row * r + i < args.wdown.reach ∧ i * n + j < args.wup.reach) →
      loraLoop mem args row j k rounds acc = some ((List.range' k rounds).foldl
        (fun acc i => acc + args.wdown.view mem (row * r + i) * args.wup.view mem (i * n + j))
          acc) := by
  induction rounds with
  | zero =>
    intro k acc _
    rfl
  | succ rounds ih =>
    intro k acc h
    obtain ⟨hdown, hup⟩ := h k (Nat.le_refl k) (by omega)
    have hsucc : ((k : Int) + 1) = ((k + 1 : ℕ) : Int) := by norm_cast
    rw [loraLoop, hR, hN, access_eq args.wdown row r k, if_pos hdown, access_eq args.wup k n j,
      if_pos hup, hsucc, ih _ _ fun i hle hlt => h i (by omega) (by omega)]
    rfl

/-- What the thread in front of an element stores there. -/
theorem loraKernel_value (h : Accepted args l m n r) (hfits : args.Fits) {t : Thread}
    (ht : l.Has t) (hcol : t.col < n) (mem : ℕ → F) :
    loraKernel mem args l t = some (some (((t.row * n + t.col : ℕ) : Int),
      reference (args.input.view mem) (args.wup.view mem) (args.wdown.view mem) n r args.scale
        t.row t.col)) := by
  obtain ⟨hrounds, hin, hout⟩ :=
    (loraKernel_isSome mem h ht).mp ((h.inside_iff mem).mpr hfits t ht) hcol
  have hloop := loraLoop_eq h.N h.R mem t.row t.col r 0 0 fun i _ hi => hrounds i (by omega)
  rw [loraKernel_eq mem h ht, if_pos hcol]
  have hzero : (0 : Int) = ((0 : ℕ) : Int) := rfl
  rw [hzero, hloop, Option.bind_some, if_pos hin, if_pos hout, reference, List.range_eq_range']
  rfl

/-- What the host computes depends on the elements of three matrices only. -/
theorem reference_congr {x x' wup wup' wdown wdown' : ℕ → F} {scale : F} {i j : ℕ} (hi : i < m)
    (hj : j < n) (hx : ∀ k < m * n, x k = x' k) (hup : ∀ k < r * n, wup k = wup' k)
    (hdown : ∀ k < m * r, wdown k = wdown' k) :
    reference x wup wdown n r scale i j = reference x' wup' wdown' n r scale i j := by
  unfold reference
  rw [hx _ (RowMajor.lt_size hi hj)]
  refine congrArg (x' (i * n + j) + scale * ·) (List.foldl_ext _ _ _ fun acc k hk => ?_)
  have hk := List.mem_range.mp hk
  rw [hdown _ (RowMajor.lt_size hi hk), hup _ (RowMajor.lt_size hk hj)]

/-! ### Interleavings -/

theorem keeps_launch (h : Accepted args l m n r) (mem : ℕ → F) : ∀ k p,
    (launched args l mem).threads k = some p → Keeps args.loads (args.storesAt l n k) p := by
  intro k p hp
  obtain ⟨t, ht, rfl, rfl⟩ := launched_iff.mp hp
  exact (keeps_thread h ht).mono fun a ha => ⟨t, ht, rfl, ha⟩

/-- No thread goes on. -/
def Ended (c : Config (ℕ → F) (Access ℕ F) Answer (Option Unit)) : Prop :=
  ∀ k p, c.threads k = some p → ∃ b, p = .done b

/-- The output holds what the host computes from the other buffers, and nothing else has changed. -/
structure Computed (args : LoraArgs F) (m n r : ℕ) (mem mem' : ℕ → F) : Prop where
  output : ∀ i < m, ∀ j < n, args.output.view mem' (i * n + j) =
    reference (args.input.view mem) (args.wup.view mem) (args.wdown.view mem) n r args.scale i j
  rest : ∀ a, (∀ k < m * n, a ≠ args.output.ptr.toNat + 4 * k) → mem' a = mem a

variable {mem : ℕ → F} {c : Config (ℕ → F) (Access ℕ F) Answer (Option Unit)}
  {ls : List (Label (Access ℕ F) Answer Empty Empty)}

/-- Every interleaving can be brought to an end. -/
theorem exists_end (h : Accepted args l m n r) (hsep : args.Separate)
    (hsteps : Steps memory (launched args l mem) ls c) :
    ∃ ls' c', Steps memory c ls' c' ∧ Ended c' := by
  have hsolitary := solitary (apart_launch h hsep) (keeps_launch h mem) hsteps
  obtain ⟨ls', c', hrest, hends, hnone⟩ := finish_all (Finset.range (2 ^ 96)) c
  refine ⟨ls', c', hrest, fun k p hp => hends k ?_ p hp⟩
  by_contra hk
  have hfree : (launched args l mem).threads k = none := by
    cases hthread : (launched args l mem).threads k with
    | none => rfl
    | some p =>
      obtain ⟨t, -, rfl, -⟩ := launched_iff.mp hthread
      exact absurd (Finset.mem_range.mpr t.number_lt) hk
  rw [hnone k (hsolitary.none k hfree)] at hp
  cases hp

theorem computed (h : Accepted args l m n r) (hfits : args.Fits) (hsep : args.Separate)
    (hsteps : Steps memory (launched args l mem) ls c) (hended : Ended c) :
    Computed args m n r mem c.shared := by
  have hapart := apart_launch h hsep
  have hkeeps := keeps_launch h mem
  have hsolitary := solitary hapart hkeeps hsteps
  constructor
  · intro i hi j hj
    obtain ⟨t, ht, rfl, rfl⟩ := h.exists_thread hi hj
    have hp : (launched args l mem).threads t.number = some (threadProgram args l t) :=
      launched_iff.mpr ⟨t, ht, rfl, rfl⟩
    obtain ⟨q, seen, hq, -⟩ := hsolitary.thread _ _ hp
    obtain ⟨b, rfl⟩ := hended _ q hq
    obtain ⟨-, hstored⟩ := result hapart hkeeps hsteps hp hq
    have hreach : t.row * n + t.col < args.output.reach :=
      (((loraKernel_isSome mem h ht).mp ((h.inside_iff mem).mpr hfits t ht)) hj).2.2
    rw [DeviceBuffer.view, hstored _ ⟨t, ht, rfl, hj, hreach, rfl⟩]
    change (alone (threadProgram args l t) mem).2 _ = _
    rw [alone_thread args h ht, loraKernel_value h hfits ht hj]
    show Function.update mem _ _ _ = _
    rw [Int.toNat_natCast, Function.update_self]
  · intro a ha
    refine hsolitary.rest a ?_
    rintro k ⟨t, ht, -, hcol, -, rfl⟩
    exact ha _ (RowMajor.lt_size ((h.has_iff t).mp ht).1 hcol) rfl

theorem Computed.view {mem' : ℕ → F} (hc : Computed args m n r mem mem')
    (hout : m * n ≤ args.output.floats) {p : DeviceBuffer} (hp : args.output.Disjoint p) {k : ℕ}
    (hk : k < p.floats) : p.view mem' k = p.view mem k := by
  refine hc.rest _ fun i hi heq => ?_
  exact hp.notMem ⟨i, by omega, rfl⟩ ⟨k, hk, heq.symm⟩

/-- So computing it once more changes nothing. -/
theorem Computed.again {mem' mem'' : ℕ → F} (h : Accepted args l m n r) (hfits : args.Fits)
    (hsep : args.Separate) (hc : Computed args m n r mem mem')
    (hc' : Computed args m n r mem' mem'') : mem'' = mem' := by
  obtain ⟨hdown, hup, -, -⟩ := h.fits_iff.mp hfits
  have hin := h.input
  unfold DeviceBuffer.reach at hdown hup
  funext a
  by_cases ha : ∃ k < m * n, a = args.output.ptr.toNat + 4 * k
  · obtain ⟨k, hk, rfl⟩ := ha
    obtain ⟨i, j, hi, hj, rfl⟩ := RowMajor.exists_of_lt hk
    refine (hc'.output i hi j hj).trans (.trans ?_ (hc.output i hi j hj).symm)
    exact reference_congr hi hj (fun k hk => hc.view h.output hsep.input (by omega))
      (fun k hk => hc.view h.output hsep.wup (by omega))
      fun k hk => hc.view h.output hsep.wdown (by omega)
  · exact hc'.rest a fun k hk heq => ha ⟨k, hk, heq⟩

/-- A launch that is accepted and whose arguments fit comes to an end in whatever order its threads
take their accesses. It leaves behind what the host computes, and to launch it again then changes
nothing. -/
theorem lora_launch (d : Device) (hl : (applyLora d args).2 = some l) (hfits : args.Fits)
    (hsep : args.Separate) (hsteps : Steps memory (launched args l mem) ls c) :
    (∃ ls' c', Steps memory c ls' c' ∧ Ended c') ∧
      (Ended c → Computed args args.M.toInt.toNat args.N.toInt.toNat args.R.toInt.toNat mem
          c.shared ∧
        ∀ ls' c', Steps memory (launched args l c.shared) ls' c' → Ended c' →
          c'.shared = c.shared) := by
  obtain ⟨m, n, r, h⟩ := accepted_of_launch hl
  rw [h.M, h.N, h.R, Int.toNat_natCast, Int.toNat_natCast, Int.toNat_natCast]
  refine ⟨exists_end h hsep hsteps, fun hended => ?_⟩
  have hc := computed h hfits hsep hsteps hended
  exact ⟨hc, fun ls' c' hsteps' hended' =>
    hc.again h hfits hsep (computed h hfits hsep hsteps' hended')⟩

end Values

/-- The launch for the sample arguments. -/
def sampleLaunch : Launch := ⟨1, 1, 256⟩

theorem sampleLaunch_eq : (applyLora sampleDevice (sampleArgs 8)).2 = some sampleLaunch := by
  decide +kernel

theorem sampleArgs_fits : (sampleArgs 8).Fits :=
  ⟨by decide, by decide, by decide, by decide, by decide⟩

theorem sampleArgs_separate : (sampleArgs 8).Separate :=
  ⟨.inr (by decide), .inr (by decide), .inr (by decide)⟩

theorem lora_launch_sample : ∃ ls c,
    Steps memory (launched (sampleArgs 8) sampleLaunch fun _ => 0) ls c ∧ Ended c ∧
      Computed (sampleArgs 8) 1 2 1 (fun _ => 0) c.shared := by
  obtain ⟨⟨ls, c, hsteps, hended⟩, -⟩ := lora_launch sampleDevice sampleLaunch_eq sampleArgs_fits
    sampleArgs_separate (.nil (launched (sampleArgs 8) sampleLaunch fun _ => 0))
  exact ⟨ls, c, hsteps, hended, ((lora_launch sampleDevice sampleLaunch_eq sampleArgs_fits
    sampleArgs_separate hsteps).2 hended).1⟩

end AdapterFabric.Cuda
