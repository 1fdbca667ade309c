import AdapterFabric.Cuda.Launch

/-!
# AdapterFabric.Cuda.Copies

Copies to the device and from it, and a launch between them (`cuda_backend.cpp`, `cuda_impl.cu`,
`proof_cuda.cpp`).

* `uploads_ok`: vectors copied to separate buffers are all there.
* `lora_round_trip`: the vector that comes back is what the loops of the host compute.
-/

namespace AdapterFabric.Cuda

open Interleave Footprint

variable {F : Type}

namespace DeviceBuffer

/-- Device memory after a vector was copied to a buffer. -/
def write (p : DeviceBuffer) (host : List F) (mem : ℕ → F) : ℕ → F := fun a =>
  if p.ptr.toNat ≤ a ∧ (a - p.ptr.toNat) % 4 = 0 then
    (host[(a - p.ptr.toNat) / 4]?).getD (mem a)
  else mem a

theorem view_write [Zero F] (p : DeviceBuffer) (host : List F) (mem : ℕ → F) {k : ℕ}
    (hk : k < host.length) : p.view (p.write host mem) k = host.getD k 0 := by
  unfold view write
  rw [if_pos ⟨by omega, by omega⟩, show (p.ptr.toNat + 4 * k - p.ptr.toNat) / 4 = k by omega,
    List.getElem?_eq_getElem hk, List.getD_eq_getElem?_getD, List.getElem?_eq_getElem hk]
  rfl

theorem view_write_of_disjoint {p q : DeviceBuffer} (h : q.Disjoint p) {host : List F}
    (hsize : 4 * host.length ≤ q.bytes.toNat) (mem : ℕ → F) {k : ℕ} (hk : k < p.floats) :
    p.view (q.write host mem) k = p.view mem k := by
  unfold view write
  split
  · rename_i hin
    have hout : host.length ≤ (p.ptr.toNat + 4 * k - q.ptr.toNat) / 4 := by
      unfold floats at hk
      rcases h with h | h
      · omega
      · omega
    rw [List.getElem?_eq_none hout]
    rfl
  · rfl

end DeviceBuffer

/-- What the runtime makes of a copy to the device: whether it succeeds, and what the memory holds
if it does not. -/
structure CopyIn (F : Type) where
  ok : Bool
  torn : ℕ → F

/-- And of a copy from it. -/
structure CopyOut (F : Type) where
  ok : Bool
  torn : List F

def upload (copy : CopyIn F) (buf : DeviceBuffer) (host : List F) (mem : ℕ → F) :
    Bool × (ℕ → F) :=
  if ¬ buf.valid ∨ buf.bytes.toNat < 4 * host.length then (false, mem)
  else if copy.ok then (true, buf.write host mem) else (false, copy.torn)

def download (copy : CopyOut F) (buf : DeviceBuffer) (host : List F) (mem : ℕ → F) :
    Bool × List F :=
  if ¬ buf.valid ∨ buf.bytes.toNat < 4 * host.length then (false, host)
  else if copy.ok then (true, (List.range host.length).map (buf.view mem)) else (false, copy.torn)

theorem upload_ok {copy : CopyIn F} {buf : DeviceBuffer} {host : List F} {mem : ℕ → F}
    (h : (upload copy buf host mem).1 = true) : 4 * host.length ≤ buf.bytes.toNat ∧
      (upload copy buf host mem).2 = buf.write host mem := by
  unfold upload at h ⊢
  split at h
  · cases h
  · rename_i hsize
    rw [if_neg hsize]
    split at h
    · rename_i hok
      rw [if_pos hok]
      exact ⟨Nat.not_lt.mp fun hlt => hsize (.inr hlt), rfl⟩
    · cases h

/-- The copies of the three matrices to the device, as far as they succeed. -/
def uploads (copies : CopyIn F × CopyIn F × CopyIn F) (args : LoraArgs F) (x wup wdown : List F)
    (mem : ℕ → F) : Bool × (ℕ → F) :=
  let (ok, mem) := upload copies.1 args.input x mem
  if ¬ ok then (false, mem)
  else
    let (ok, mem) := upload copies.2.1 args.wup wup mem
    if ¬ ok then (false, mem) else upload copies.2.2 args.wdown wdown mem

theorem download_ok {copy : CopyOut F} {buf : DeviceBuffer} {host : List F} {mem : ℕ → F}
    (h : (download copy buf host mem).1 = true) :
    (download copy buf host mem).2 = (List.range host.length).map (buf.view mem) := by
  unfold download at h ⊢
  split at h
  · cases h
  · rename_i hsize
    rw [if_neg hsize]
    split at h
    · rename_i hok
      rw [if_pos hok]
    · cases h

/-- The buffers are four allocations. -/
structure LoraArgs.Allocated (args : LoraArgs F) : Prop extends args.Separate where
  inputUp : args.input.Disjoint args.wup
  inputDown : args.input.Disjoint args.wdown
  upDown : args.wup.Disjoint args.wdown

/-- The vectors hold matrices whose indices fit into `int`. -/
structure LoraArgs.Sized (args : LoraArgs F) (x wup wdown y : List F) : Prop where
  x : (x.length : Int) = args.M.toInt * args.N.toInt
  wup : (wup.length : Int) = args.R.toInt * args.N.toInt
  wdown : (wdown.length : Int) = args.M.toInt * args.R.toInt
  y : (y.length : Int) = args.M.toInt * args.N.toInt
  outIndex : args.M.toInt * args.N.toInt ≤ 2 ^ 31
  downIndex : args.M.toInt * args.R.toInt ≤ 2 ^ 31
  upIndex : args.R.toInt * args.N.toInt ≤ 2 ^ 31

theorem DeviceBuffer.Disjoint.symm {p q : DeviceBuffer} (h : p.Disjoint q) : q.Disjoint p :=
  Or.symm h

theorem DeviceBuffer.le_floats {p : DeviceBuffer} {n : ℕ} (h : 4 * n ≤ p.bytes.toNat) :
    n ≤ p.floats := by
  unfold floats
  omega

/-- Where the three copies succeed, the buffers hold the vectors. -/
theorem uploads_ok [Zero F] {copies : CopyIn F × CopyIn F × CopyIn F} {args : LoraArgs F}
    {x wup wdown : List F} {mem : ℕ → F} (halloc : args.Allocated)
    (h : (uploads copies args x wup wdown mem).1 = true) :
    let mem' := (uploads copies args x wup wdown mem).2
    wup.length ≤ args.wup.floats ∧ wdown.length ≤ args.wdown.floats ∧
      (∀ k < x.length, args.input.view mem' k = x.getD k 0) ∧
      (∀ k < wup.length, args.wup.view mem' k = wup.getD k 0) ∧
      ∀ k < wdown.length, args.wdown.view mem' k = wdown.getD k 0 := by
  unfold uploads at h ⊢
  dsimp only at h ⊢
  by_cases h₁ : (upload copies.1 args.input x mem).1 = true
  · rw [if_neg (not_not.mpr h₁)] at h ⊢
    obtain ⟨hx, hmem₁⟩ := upload_ok h₁
    rw [hmem₁] at h ⊢
    by_cases h₂ : (upload copies.2.1 args.wup wup (args.input.write x mem)).1 = true
    · rw [if_neg (not_not.mpr h₂)] at h ⊢
      obtain ⟨hup, hmem₂⟩ := upload_ok h₂
      rw [hmem₂] at h ⊢
      obtain ⟨hdown, hmem₃⟩ := upload_ok h
      rw [hmem₃]
      refine ⟨DeviceBuffer.le_floats hup, DeviceBuffer.le_floats hdown, ?_, ?_, ?_⟩
      · intro k hk
        have hin := Nat.lt_of_lt_of_le hk (DeviceBuffer.le_floats hx)
        rw [DeviceBuffer.view_write_of_disjoint halloc.inputDown.symm hdown _ hin,
          DeviceBuffer.view_write_of_disjoint halloc.inputUp.symm hup _ hin,
          DeviceBuffer.view_write _ _ _ hk]
      · intro k hk
        have hin := Nat.lt_of_lt_of_le hk (DeviceBuffer.le_floats hup)
        rw [DeviceBuffer.view_write_of_disjoint halloc.upDown.symm hdown _ hin,
          DeviceBuffer.view_write _ _ _ hk]
      · intro k hk
        exact DeviceBuffer.view_write _ _ _ hk
    · rw [if_pos h₂] at h
      cases h
  · rw [if_pos h₁] at h
    cases h

/-- Copied to the device, computed there in any interleaving, and copied back, the vector holds what
the loops of the host compute from the same vectors. -/
theorem lora_round_trip [Zero F] [Add F] [Mul F] (d : Device) {args : LoraArgs F} {l : Launch}
    (hl : (applyLora d args).2 = some l) (halloc : args.Allocated) {x wup wdown y : List F}
    (hsized : args.Sized x wup wdown y) {copies : CopyIn F × CopyIn F × CopyIn F} {mem : ℕ → F}
    (hup : (uploads copies args x wup wdown mem).1 = true)
    {ls : List (Label (Access ℕ F) Answer Empty Empty)}
    {c : Config (ℕ → F) (Access ℕ F) Answer (Option Unit)}
    (hsteps : Steps memory (launched args l (uploads copies args x wup wdown mem).2) ls c)
    (hended : Ended c) (copy : CopyOut F)
    (hdown : (download copy args.output y c.shared).1 = true) {i j : ℕ} (hi : i < args.M.toInt)
    (hj : j < args.N.toInt) :
    (download copy args.output y c.shared).2[i * args.N.toInt.toNat + j]? =
      some (reference (x.getD · 0) (wup.getD · 0) (wdown.getD · 0) args.N.toInt.toNat
        args.R.toInt.toNat args.scale i j) := by
  obtain ⟨m, n, r, h⟩ := accepted_of_launch hl
  obtain ⟨hupSize, hdownSize, hx, hwup, hwdown⟩ := uploads_ok halloc hup
  obtain ⟨sx, sup, sdown, sy, hmn, hmr, hrn⟩ := hsized
  have hfits : args.Fits := ⟨hmn, hmr, hrn, by omega, by omega⟩
  have hc := computed h hfits halloc.toSeparate hsteps hended
  rw [h.M] at hi sx sdown sy
  rw [h.N] at hj sx sup sy ⊢
  rw [h.R] at sup sdown ⊢
  norm_cast at hi hj sx sup sdown sy
  rw [Int.toNat_natCast, Int.toNat_natCast, download_ok hdown, List.getElem?_map,
    List.getElem?_range (by rw [sy]; exact RowMajor.lt_size hi hj), Option.map_some,
    hc.output i hi j hj]
  refine congrArg some (reference_congr hi hj ?_ ?_ ?_)
  · rw [← sx]
    exact hx
  · rw [← sup]
    exact hwup
  · rw [← sdown]
    exact hwdown

/-- Every copy succeeds. -/
def sampleCopy : CopyIn Int := ⟨true, fun _ => 0⟩

/-- The memory of the device after a row of two, and its two factors, were copied in. -/
def sampleMemory : ℕ → Int :=
  (uploads ⟨sampleCopy, sampleCopy, sampleCopy⟩ (sampleArgs 8) [1, 2] [3, 4] [5] fun _ => 0).2

/-- The second entry is `2 + 1 * (5 * 4)`. -/
theorem lora_round_trip_sample :
    ∃ (ls : List (Label (Access ℕ Int) Answer Empty Empty)) (c : Config _ _ Answer (Option Unit)),
      Steps memory (launched (sampleArgs 8) sampleLaunch sampleMemory) ls c ∧ Ended c ∧
        (download ⟨true, []⟩ (sampleArgs 8).output [0, 0] c.shared).2[1]? = some 22 := by
  have halloc : (sampleArgs 8).Allocated :=
    ⟨sampleArgs_separate, .inl (by decide), .inl (by decide), .inl (by decide)⟩
  have hsized : (sampleArgs 8).Sized [1, 2] [3, 4] [5] [0, 0] :=
    ⟨by decide, by decide, by decide, by decide, by decide, by decide, by decide⟩
  obtain ⟨m, n, r, h⟩ := accepted_of_launch sampleLaunch_eq
  obtain ⟨ls, c, hsteps, hended⟩ := exists_end h sampleArgs_separate
    (.nil (launched (sampleArgs 8) sampleLaunch sampleMemory))
  have hentry := lora_round_trip sampleDevice sampleLaunch_eq halloc hsized (by decide +kernel)
    hsteps hended ⟨true, []⟩ rfl (i := 0) (j := 1) (by decide) (by decide)
  exact ⟨ls, c, hsteps, hended, hentry.trans (by decide +kernel)⟩

end AdapterFabric.Cuda
