import AdapterFabric.Adapter
import AdapterFabric.Lib.Table
import Mathlib.Logic.Function.Basic

/-!
# AdapterFabric.Capacity

Byte accounting per residency location (`capacity.hpp`, `capacity.cpp`).

A failing `reserve` or `release` still leaves the zero entry that `held_[{loc, owner}]` inserts, so
both return the accountant they leave behind next to the result.

* `account_reserve`, `account_release`: on the account of a location they are a guarded transfer.
-/

namespace AdapterFabric

open Std

namespace ResidencyLocation

/-- The underlying value, which orders the keys of the maps. -/
def toNat : ResidencyLocation → Nat
  | .deviceMemory => 0
  | .pinnedHost => 1
  | .pageableHost => 2
  | .processLocal => 3
  | .nodeLocal => 4
  | .persistentStorage => 5

theorem toNat_inj {a b : ResidencyLocation} (h : a.toNat = b.toNat) : a = b := by
  cases a <;> cases b <;> first | rfl | cases h

def toBytes : ResidencyLocation → Bytes
  | .deviceMemory => ascii "device_memory"
  | .pinnedHost => ascii "pinned_host"
  | .pageableHost => ascii "pageable_host"
  | .processLocal => ascii "process_local"
  | .nodeLocal => ascii "node_local"
  | .persistentStorage => ascii "persistent_storage"

def all : List ResidencyLocation :=
  [.deviceMemory, .pinnedHost, .pageableHost, .processLocal, .nodeLocal, .persistentStorage]

/-- The order of `std::map<ResidencyLocation, _>`. -/
def cmp : ResidencyLocation → ResidencyLocation → Ordering := compareOn toNat

instance : TransCmp cmp := inferInstanceAs (TransCmp (compareOn toNat))

instance : LawfulEqCmp cmp where
  eq_of_compare h := toNat_inj (Nat.compare_eq_eq.mp h)

end ResidencyLocation

/-- The key of `held_`, ordered as a `std::pair`. -/
abbrev HoldKey := ResidencyLocation × Bytes

namespace HoldKey

def cmp : HoldKey → HoldKey → Ordering :=
  compareLex (compareOn fun k => k.1.toNat) (compareOn fun k => k.2)

instance : TransCmp cmp :=
  inferInstanceAs (TransCmp (compareLex (compareOn fun k : HoldKey => k.1.toNat)
    (compareOn fun k : HoldKey => k.2)))

instance : LawfulEqCmp cmp where
  eq_of_compare {a b} h := by
    obtain ⟨h1, h2⟩ := Ordering.then_eq_eq.mp h
    exact Prod.ext (ResidencyLocation.toNat_inj (Nat.compare_eq_eq.mp h1))
      (LawfulEqCmp.compare_eq_iff_eq.mp h2)

end HoldKey

structure CapacityAccountant where
  used : ExtTreeMap ResidencyLocation UInt64 ResidencyLocation.cmp := ∅
  limits : ExtTreeMap ResidencyLocation UInt64 ResidencyLocation.cmp := ∅
  /-- what each owner holds in each location -/
  held : ExtTreeMap HoldKey UInt64 HoldKey.cmp := ∅

namespace CapacityAccountant

/-- The constructor from limits: every location gets a used and a limit entry. -/
def ofLimits (limits : ExtTreeMap ResidencyLocation UInt64 ResidencyLocation.cmp) :
    CapacityAccountant where
  used := ResidencyLocation.all.foldl (fun m loc => m.insertIfNew loc 0) ∅
  limits := ResidencyLocation.all.foldl (fun m loc => m.insertIfNew loc 0) limits

def usedAt (c : CapacityAccountant) (loc : ResidencyLocation) : UInt64 := (c.used[loc]?).getD 0

def limit (c : CapacityAccountant) (loc : ResidencyLocation) : UInt64 := (c.limits[loc]?).getD 0

def setLimit (c : CapacityAccountant) (loc : ResidencyLocation) (bytes : UInt64) :
    CapacityAccountant :=
  { c with limits := c.limits.insert loc bytes }

/-- `held_[{loc, owner}]`: the amount held, inserting a zero entry when there is none. -/
def touch (c : CapacityAccountant) (loc : ResidencyLocation) (owner : Bytes) :
    UInt64 × CapacityAccountant :=
  ((c.held[((loc, owner) : HoldKey)]?).getD 0,
    { c with held := c.held.insertIfNew (loc, owner) 0 })

/-- Unsigned arithmetic wraps, as `limit(loc) - used(loc)` does in the source. -/
def reserve (c : CapacityAccountant) (loc : ResidencyLocation) (bytes : UInt64) (owner : Bytes) :
    Except Error Unit × CapacityAccountant :=
  let (held, c) := c.touch loc owner
  if held ≠ 0 then
    (.error ⟨.doubleReservation,
      ascii "double reservation for " ++ owner ++ ascii " in " ++ loc.toBytes⟩, c)
  else if bytes > c.limit loc - c.usedAt loc then
    (.error ⟨.capacityOvercommit, ascii "overcommit in " ++ loc.toBytes⟩, c)
  else
    (.ok (), { c with
      held := c.held.insert (loc, owner) bytes
      used := c.used.insert loc (c.usedAt loc + bytes) })

def release (c : CapacityAccountant) (loc : ResidencyLocation) (bytes : UInt64) (owner : Bytes) :
    Except Error Unit × CapacityAccountant :=
  let (held, c) := c.touch loc owner
  if held = 0 then
    (.error ⟨.doubleRelease,
      ascii "double release for " ++ owner ++ ascii " in " ++ loc.toBytes⟩, c)
  else if bytes > held then
    (.error ⟨.capacityUnderflow,
      ascii "release exceeds reservation for " ++ owner ++ ascii " in " ++ loc.toBytes⟩, c)
  else
    (.ok (), { c with
      held := c.held.insert (loc, owner) (held - bytes)
      used := c.used.insert loc (c.usedAt loc - bytes) })

def free (c : CapacityAccountant) (loc : ResidencyLocation) : UInt64 :=
  if c.limit loc > c.usedAt loc then c.limit loc - c.usedAt loc else 0

def overLimit (c : CapacityAccountant) (loc : ResidencyLocation) : Bool :=
  c.usedAt loc > c.limit loc

def isClean (c : CapacityAccountant) : Bool := c.used.toList.all fun kv => kv.2 = 0

def usage (c : CapacityAccountant) : ExtTreeMap ResidencyLocation UInt64 ResidencyLocation.cmp :=
  c.used

end CapacityAccountant

/-! ## The account of a location -/

/-- What can be seen of one location. -/
@[ext] structure Account where
  used : UInt64
  limit : UInt64
  held : Bytes → UInt64

namespace Account

def reserve (a : Account) (bytes : UInt64) (owner : Bytes) : Account :=
  if a.held owner ≠ 0 ∨ bytes > a.limit - a.used then a
  else { a with used := a.used + bytes, held := Function.update a.held owner bytes }

def release (a : Account) (bytes : UInt64) (owner : Bytes) : Account :=
  if a.held owner = 0 ∨ bytes > a.held owner then a
  else
    { a with used := a.used - bytes, held := Function.update a.held owner (a.held owner - bytes) }

end Account

namespace CapacityAccountant

def account (c : CapacityAccountant) (loc : ResidencyLocation) : Account where
  used := c.usedAt loc
  limit := c.limit loc
  held owner := (c.held[((loc, owner) : HoldKey)]?).getD 0

section Account

variable (c : CapacityAccountant) (loc : ResidencyLocation) (bytes : UInt64) (owner : Bytes)

theorem account_touch : (c.touch loc owner).2.account loc = c.account loc := by
  refine Account.ext rfl rfl (funext fun o => ?_)
  show ((c.held.insertIfNew (loc, owner) 0)[((loc, o) : HoldKey)]?).getD 0 = _
  rw [ExtTreeMap.getElem?_insertIfNew]
  split
  · rename_i h
    obtain ⟨heq, hnew⟩ := h
    obtain ⟨-, rfl⟩ := Prod.ext_iff.mp (LawfulEqCmp.compare_eq_iff_eq.mp heq)
    simp only [account]
    rw [ExtTreeMap.getElem?_eq_none hnew]
    rfl
  · rfl

theorem account_write (used held : UInt64) :
    ({ c with
      held := c.held.insert (loc, owner) held
      used := c.used.insert loc used } : CapacityAccountant).account loc =
      { c.account loc with used, held := Function.update (c.account loc).held owner held } := by
  refine Account.ext ?_ rfl (funext fun o => ?_)
  · show ((c.used.insert loc used)[loc]?).getD 0 = used
    rw [ExtTreeMap.getElem?_insert_self]
    rfl
  · show ((c.held.insert (loc, owner) held)[((loc, o) : HoldKey)]?).getD 0 =
      Function.update (c.account loc).held owner held o
    rw [Table.get_insert]
    by_cases ho : o = owner
    · subst ho
      rw [if_pos rfl, Function.update_self]
      rfl
    · rw [if_neg fun h => ho (Prod.ext_iff.mp h).2.symm, Function.update_of_ne ho]
      rfl

theorem account_reserve :
    (c.reserve loc bytes owner).2.account loc = (c.account loc).reserve bytes owner := by
  have htouch := c.account_touch loc owner
  unfold reserve Account.reserve
  by_cases hheld : (c.touch loc owner).1 ≠ 0
  · rw [if_pos (.inl hheld)]
    dsimp only
    rw [if_pos hheld, htouch]
  · dsimp only
    rw [if_neg hheld]
    by_cases hover : bytes > (c.touch loc owner).2.limit loc - (c.touch loc owner).2.usedAt loc
    · have hrefused : (c.account loc).held owner ≠ 0 ∨
          bytes > (c.account loc).limit - (c.account loc).used := .inr hover
      rw [if_pos hover, if_pos hrefused, htouch]
    · have hfree : ¬ ((c.account loc).held owner ≠ 0 ∨
          bytes > (c.account loc).limit - (c.account loc).used) := not_or.mpr ⟨hheld, hover⟩
      rw [if_neg hover, if_neg hfree, account_write, htouch]
      rfl

theorem account_release :
    (c.release loc bytes owner).2.account loc = (c.account loc).release bytes owner := by
  have htouch := c.account_touch loc owner
  unfold release Account.release
  by_cases hheld : (c.touch loc owner).1 = 0
  · rw [if_pos (.inl hheld)]
    dsimp only
    rw [if_pos hheld, htouch]
  · dsimp only
    rw [if_neg hheld]
    by_cases hover : bytes > (c.touch loc owner).1
    · rw [if_pos hover, if_pos (.inr hover), htouch]
    · have hheld : ¬ ((c.account loc).held owner = 0 ∨ bytes > (c.account loc).held owner) :=
        not_or.mpr ⟨hheld, hover⟩
      rw [if_neg hover, if_neg hheld, account_write, htouch]
      rfl

end Account

end CapacityAccountant

end AdapterFabric
