import AdapterFabric.Capacity.Calls
import Mathlib.Algebra.Order.Group.Int

/-!
# AdapterFabric.Capacity.Adjust

Signed changes of what an owner holds (`CapacityAccountant::adjust`, `capacity.cpp`).

A `Ledger` is the list of the changes that were granted. It says what the accountant is for in terms
of integers: what an owner holds and what is in use are sums of what was granted.

* `Tracks.adjust`: one call of the accountant grants what the ledger grants, and keeps its sums.
* `adjust_refines`: so do any calls, one after another.
-/

namespace AdapterFabric

namespace CapacityAccountant

/-- `adjust`. The negation of the least `std::int64_t` is undefined. -/
def adjust (c : CapacityAccountant) (loc : ResidencyLocation) (delta : Int64) (owner : Bytes) :
    Except Error Unit × CapacityAccountant :=
  if delta ≥ 0 then c.reserve loc delta.toUInt64 owner
  else c.release loc (-delta).toUInt64 owner

/-- The arguments of a call. -/
structure Adjustment where
  loc : ResidencyLocation
  delta : Int64
  owner : Bytes

/-- Which of the calls succeed, and the accountant after them. -/
def adjusts : List Adjustment → CapacityAccountant → List Bool × CapacityAccountant
  | [], c => ([], c)
  | a :: as, c =>
    let (result, c) := c.adjust a.loc a.delta a.owner
    let (granted, c) := adjusts as c
    (result.toOption.isSome :: granted, c)

/-! ## The ledger -/

/-- The changes that were granted, latest first. -/
abbrev Ledger := List Adjustment

namespace Ledger

/-- What the owner holds. -/
def balance (l : Ledger) (loc : ResidencyLocation) (owner : Bytes) : ℤ :=
  ((l.filter fun a => a.loc = loc ∧ a.owner = owner).map (·.delta.toInt)).sum

/-- What is in use. -/
def total (l : Ledger) (loc : ResidencyLocation) : ℤ :=
  ((l.filter fun a => a.loc = loc).map (·.delta.toInt)).sum

/-- An increase is granted to an owner that holds nothing, as far as the limit goes; a decrease to
an owner that holds as much. -/
def Grants (limit : ResidencyLocation → ℕ) (l : Ledger) (a : Adjustment) : Prop :=
  if 0 ≤ a.delta.toInt then
    l.balance a.loc a.owner = 0 ∧ l.total a.loc + a.delta.toInt ≤ limit a.loc
  else 0 ≤ l.balance a.loc a.owner + a.delta.toInt

instance (limit : ResidencyLocation → ℕ) (l : Ledger) (a : Adjustment) :
    Decidable (Grants limit l a) := by
  unfold Grants
  infer_instance

/-- Which of the changes are granted, and the ledger after them. -/
def takes (limit : ResidencyLocation → ℕ) : List Adjustment → Ledger → List Bool × Ledger
  | [], l => ([], l)
  | a :: as, l =>
    if Grants limit l a then
      let (granted, l) := takes limit as (a :: l)
      (true :: granted, l)
    else
      let (granted, l) := takes limit as l
      (false :: granted, l)

variable (l : Ledger) (a : Adjustment) (loc : ResidencyLocation) (owner : Bytes)

@[simp] theorem balance_cons : balance (a :: l) loc owner =
    (if a.loc = loc ∧ a.owner = owner then a.delta.toInt else 0) + l.balance loc owner := by
  by_cases h : a.loc = loc ∧ a.owner = owner
  · simp [balance, h]
  · simp [balance, h]

@[simp] theorem total_cons : total (a :: l) loc =
    (if a.loc = loc then a.delta.toInt else 0) + l.total loc := by
  by_cases h : a.loc = loc
  · simp [total, h]
  · simp [total, h]

end Ledger

/-! ## The accountant keeps the ledger -/

/-- What is in use and what the owners hold are the sums of the ledger, within the limits. -/
structure Tracks (limit : ResidencyLocation → ℕ) (l : Ledger) (c : CapacityAccountant) : Prop where
  used : ∀ loc, ((c.usedAt loc).toNat : ℤ) = l.total loc
  held : ∀ loc owner, ((c.heldBy loc owner).toNat : ℤ) = l.balance loc owner
  limit : ∀ loc, (c.limit loc).toNat = limit loc
  exact_ : c.Exact

section Tracks

variable {limit : ResidencyLocation → ℕ} {l : Ledger} {c : CapacityAccountant}

theorem toNat_increase {delta : Int64} (h : delta ≥ 0) :
    (delta.toUInt64.toNat : ℤ) = delta.toInt ∧ 0 ≤ delta.toInt := by
  have hle : 0 ≤ delta.toInt := by simpa using Int64.le_iff_toInt_le.mp h
  rw [Int64.toNat_toUInt64_of_le h, Int64.toNatClampNeg]
  omega

theorem toNat_decrease {delta : Int64} (h : ¬ delta ≥ 0) (hmin : delta ≠ Int64.minValue) :
    ((-delta).toUInt64.toNat : ℤ) = - delta.toInt ∧ delta.toInt < 0 := by
  have hlt : delta.toInt < 0 := by
    have : ¬ (0 : Int64).toInt ≤ delta.toInt := fun hle => h (Int64.le_iff_toInt_le.mpr hle)
    simpa using this
  have hlow : - 2 ^ 63 < delta.toInt := by
    have hge := delta.le_toInt
    have hne : delta.toInt ≠ - 2 ^ 63 := fun he => hmin (Int64.toInt_inj.mp (by rw [he]; decide))
    omega
  have hneg : (-delta).toInt = - delta.toInt := by
    rw [Int64.toInt_neg]
    exact Int.bmod_eq_of_le (by omega) (by omega)
  have hnonneg : 0 ≤ -delta := by
    rw [Int64.le_iff_toInt_le, hneg]
    simpa using hlt.le
  rw [Int64.toNat_toUInt64_of_le hnonneg, Int64.toNatClampNeg, hneg]
  omega

theorem release_fails (c : CapacityAccountant) (loc : ResidencyLocation) (owner : Bytes)
    (bytes : UInt64) :
    (c.heldBy loc owner = 0 ∨ c.heldBy loc owner < bytes) ∧
        (∃ e, (c.release loc bytes owner).1 = .error e) ∧
        (c.release loc bytes owner).2 = c.touched loc owner ∨
      c.heldBy loc owner ≠ 0 ∧ bytes ≤ c.heldBy loc owner ∧
        c.release loc bytes owner = (.ok (),
          c.transferred loc owner (c.usedAt loc - bytes) (c.heldBy loc owner - bytes)) := by
  rcases release_cases c loc owner bytes with ⟨⟨e, he⟩, heq⟩ | hdone
  · refine .inl ⟨?_, ⟨e, he⟩, heq⟩
    by_contra hno
    obtain ⟨hsome, hroom⟩ := not_or.mp hno
    rw [release_eq, if_neg hsome, if_neg hroom] at he
    simp at he
  · exact .inr hdone

theorem Tracks.touched (h : Tracks limit l c) (loc : ResidencyLocation) (owner : Bytes) :
    Tracks limit l (c.touched loc owner) where
  used := h.used
  held loc' owner' := by rw [heldBy_touched]; exact h.held loc' owner'
  limit := h.limit
  exact_ := h.exact_.touched loc owner

theorem Tracks.transferred (h : Tracks limit l c) {a : Adjustment} {used held : UInt64}
    (hused : (used.toNat : ℤ) = (c.usedAt a.loc).toNat + a.delta.toInt)
    (hheld : (held.toNat : ℤ) = (c.heldBy a.loc a.owner).toNat + a.delta.toInt)
    (hexact : (c.transferred a.loc a.owner used held).Exact) :
    Tracks limit (a :: l) (c.transferred a.loc a.owner used held) where
  used loc := by
    rw [usedAt_transferred, Ledger.total_cons]
    by_cases hloc : a.loc = loc
    · subst hloc
      rw [if_pos rfl, if_pos rfl, hused, h.used]
      omega
    · rw [if_neg hloc, if_neg hloc, h.used]
      omega
  held loc owner := by
    rw [heldBy_transferred, Ledger.balance_cons]
    by_cases hkey : a.loc = loc ∧ a.owner = owner
    · obtain ⟨rfl, rfl⟩ := hkey
      rw [if_pos ⟨rfl, rfl⟩, if_pos ⟨rfl, rfl⟩, hheld, h.held]
      omega
    · rw [if_neg hkey, if_neg hkey, h.held]
      omega
  limit := h.limit
  exact_ := hexact

/-- The accountant grants what the ledger grants. -/
theorem Tracks.adjust (h : Tracks limit l c) {a : Adjustment} (hmin : a.delta ≠ Int64.minValue) :
    (l.Grants limit a ∧ (c.adjust a.loc a.delta a.owner).1 = .ok () ∧
        Tracks limit (a :: l) (c.adjust a.loc a.delta a.owner).2) ∨
      ¬ l.Grants limit a ∧ (∃ e, (c.adjust a.loc a.delta a.owner).1 = .error e) ∧
        Tracks limit l (c.adjust a.loc a.delta a.owner).2 := by
  have hused := h.used a.loc
  have hheld := h.held a.loc a.owner
  have hlimit := h.limit a.loc
  have hle := UInt64.le_iff_toNat_le.mp (h.exact_ a.loc).2
  have hfree := h.exact_.sub_toNat a.loc
  by_cases hsign : a.delta ≥ 0
  · obtain ⟨hbytes, hnonneg⟩ := toNat_increase hsign
    have hexact := h.exact_.reserve a.loc a.delta.toUInt64 a.owner
    simp only [CapacityAccountant.adjust, if_pos hsign, Ledger.Grants, if_pos hnonneg]
    rcases reserve_cases c a.loc a.owner a.delta.toUInt64 with
      ⟨hno, ⟨e, he⟩, heq⟩ | ⟨hzero, hroom, heq⟩
    · refine .inr ⟨?_, ⟨e, he⟩, heq ▸ h.touched _ _⟩
      rintro ⟨hbalance, hfits⟩
      rcases hno with hne | hlt
      · exact hne (UInt64.toNat_inj.mp (by simp; omega))
      · have hlt := UInt64.lt_iff_toNat_lt.mp hlt
        omega
    · have hroom := UInt64.le_iff_toNat_le.mp hroom
      rw [heq] at hexact ⊢
      have hzero' : (c.heldBy a.loc a.owner).toNat = 0 := by rw [hzero]; rfl
      have hlt := (c.limit a.loc).toNat_lt
      have hadd : (c.usedAt a.loc + a.delta.toUInt64).toNat =
          (c.usedAt a.loc).toNat + a.delta.toUInt64.toNat := by
        rw [UInt64.toNat_add]
        omega
      exact .inl ⟨⟨by omega, by omega⟩, rfl, h.transferred (by omega) (by omega) hexact⟩
  · obtain ⟨hbytes, hneg⟩ := toNat_decrease hsign hmin
    have hexact := h.exact_.release a.loc (-a.delta).toUInt64 a.owner
    simp only [CapacityAccountant.adjust, if_neg hsign, Ledger.Grants, if_neg (not_le.mpr hneg)]
    have hown := h.exact_.heldBy_le a.loc a.owner
    rcases release_fails c a.loc a.owner (-a.delta).toUInt64 with
      ⟨hno, ⟨e, he⟩, heq⟩ | ⟨-, hroom, heq⟩
    · have hlt : (c.heldBy a.loc a.owner).toNat < (-a.delta).toUInt64.toNat := by
        rcases hno with hzero | hlt
        · have hzero' : (c.heldBy a.loc a.owner).toNat = 0 := by rw [hzero]; rfl
          omega
        · exact UInt64.lt_iff_toNat_lt.mp hlt
      exact .inr ⟨by omega, ⟨e, he⟩, heq ▸ h.touched _ _⟩
    · have hroom' := UInt64.le_iff_toNat_le.mp hroom
      rw [heq] at hexact ⊢
      have hsub := UInt64.toNat_sub_of_le _ _ hroom
      have hsub' := UInt64.toNat_sub_of_le (c.usedAt a.loc) (-a.delta).toUInt64
        (UInt64.le_iff_toNat_le.mpr (by omega))
      exact .inl ⟨by omega, rfl, h.transferred (by omega) (by omega) hexact⟩

theorem tracks_constructed (hc : Constructed c) :
    Tracks (fun loc => (c.limit loc).toNat) [] c where
  used loc := by
    rw [used_constructed hc]
    rfl
  held loc owner := by
    rw [heldBy, held_constructed hc]
    rfl
  limit loc := rfl
  exact_ := exact_constructed hc

theorem Tracks.adjusts {calls : List Adjustment} (hmin : ∀ a ∈ calls, a.delta ≠ Int64.minValue) :
    ∀ {l c}, Tracks limit l c →
      (CapacityAccountant.adjusts calls c).1 = (Ledger.takes limit calls l).1 ∧
        Tracks limit (Ledger.takes limit calls l).2 (CapacityAccountant.adjusts calls c).2 := by
  induction calls with
  | nil =>
    intro l c h
    exact ⟨rfl, h⟩
  | cons a as ih =>
    intro l c h
    have hrest := fun b hb => hmin b (List.mem_cons_of_mem a hb)
    simp only [CapacityAccountant.adjusts, Ledger.takes]
    rcases h.adjust (hmin a (by simp)) with ⟨hgrants, hok, hnext⟩ | ⟨hno, ⟨e, he⟩, hnext⟩
    · obtain ⟨hsame, hend⟩ := ih hrest hnext
      rw [if_pos hgrants, hok]
      exact ⟨congrArg (true :: ·) hsame, hend⟩
    · obtain ⟨hsame, hend⟩ := ih hrest hnext
      rw [if_neg hno, he]
      exact ⟨congrArg (false :: ·) hsame, hend⟩

end Tracks

/-- The calls that succeed are those the ledger grants. Afterwards what is in use and what each
owner holds are the sums of the changes granted, and what is in use is within the limit. -/
theorem adjust_refines {c₀ : CapacityAccountant} (hc₀ : Constructed c₀) (calls : List Adjustment)
    (hmin : ∀ a ∈ calls, a.delta ≠ Int64.minValue) :
    let granted := Ledger.takes (fun loc => (c₀.limit loc).toNat) calls []
    let after := adjusts calls c₀
    after.1 = granted.1 ∧
      ∀ loc, ((after.2.usedAt loc).toNat : ℤ) = granted.2.total loc ∧
        granted.2.total loc ≤ (c₀.limit loc).toNat ∧
        ∀ owner, ((after.2.heldBy loc owner).toNat : ℤ) = granted.2.balance loc owner := by
  obtain ⟨hsame, hend⟩ := (tracks_constructed hc₀).adjusts hmin
  refine ⟨hsame, fun loc => ⟨hend.used loc, ?_, hend.held loc⟩⟩
  have hle := UInt64.le_iff_toNat_le.mp (hend.exact_ loc).2
  have hused := hend.used loc
  have hlimit := hend.limit loc
  omega

/-- A grant, a second one to the same owner, and both ways of giving back too much. -/
def sampleAdjustments : List Adjustment :=
  [⟨.deviceMemory, 60, ascii "a"⟩, ⟨.deviceMemory, 10, ascii "a"⟩,
    ⟨.deviceMemory, -70, ascii "a"⟩, ⟨.deviceMemory, -1, ascii "b"⟩,
    ⟨.deviceMemory, -60, ascii "a"⟩, ⟨.deviceMemory, 100, ascii "b"⟩]

theorem adjust_refines_sample :
    (adjusts sampleAdjustments sampleAccountant).1 = [true, false, false, false, true, true] ∧
      (((adjusts sampleAdjustments sampleAccountant).2.usedAt .deviceMemory).toNat : ℤ) =
        (Ledger.takes (fun loc => (sampleAccountant.limit loc).toNat) sampleAdjustments []).2.total
          .deviceMemory :=
  ⟨by decide +kernel,
    ((adjust_refines (.ofLimits _) sampleAdjustments (by decide)).2 .deviceMemory).1⟩

end CapacityAccountant

end AdapterFabric
