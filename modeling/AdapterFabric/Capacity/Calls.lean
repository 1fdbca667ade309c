import AdapterFabric.Capacity
import AdapterFabric.Lib.Run

/-!
# AdapterFabric.Capacity.Calls

Sequences of calls on a `CapacityAccountant` (`capacity.cpp`).

A call that throws leaves a zero entry in `held_`, which no later call and no query can tell from no
entry at all (`Same`). As long as no limit is changed, what is used is what is held, and within the
limit (`Exact`), so no arithmetic wraps.

* `exact_accounting`: the books are exact after every sequence of reservations and releases.
* `no_overcommit_iff`: the reservations that succeed stay within the limit exactly when none comes
  while the location is over its limit, unless it is refused for another reason.
* `exact_iff_covers`: the books stay exact exactly when no limit is set below what is used.
-/

namespace AdapterFabric

open Std

namespace CapacityAccountant

/-! ## Calls -/

inductive Call where
  | reserve (loc : ResidencyLocation) (bytes : UInt64) (owner : Bytes)
  | release (loc : ResidencyLocation) (bytes : UInt64) (owner : Bytes)
  | setLimit (loc : ResidencyLocation) (bytes : UInt64)

namespace Call

def apply : Call → CapacityAccountant → Except Error Unit × CapacityAccountant
  | reserve loc bytes owner, c => c.reserve loc bytes owner
  | release loc bytes owner, c => c.release loc bytes owner
  | setLimit loc bytes, c => (.ok (), c.setLimit loc bytes)

def isTransfer : Call → Bool
  | setLimit _ _ => false
  | _ => true

end Call

def after (calls : List Call) (c : CapacityAccountant) : CapacityAccountant :=
  Run.exec (fun call c => (call.apply c).2) calls c

def outcomes : List Call → CapacityAccountant → List (Except Error Unit)
  | [], _ => []
  | call :: calls, c => (call.apply c).1 :: outcomes calls (call.apply c).2

/-- Either constructor. -/
inductive Constructed : CapacityAccountant → Prop where
  | default : Constructed {}
  | ofLimits (limits) : Constructed (.ofLimits limits)

/-- What an owner holds in a location. -/
def heldBy (c : CapacityAccountant) (loc : ResidencyLocation) (owner : Bytes) : UInt64 :=
  (c.held[((loc, owner) : HoldKey)]?).getD 0

/-- What all owners together hold in a location. -/
def heldSum (c : CapacityAccountant) (loc : ResidencyLocation) : ℕ :=
  Table.sum (fun k v => if k.1 = loc then v.toNat else 0) c.held

section Written

variable (c : CapacityAccountant) (loc loc' : ResidencyLocation) (owner owner' : Bytes)

/-- The accountant after `held_[{loc, owner}]` was looked at. -/
def touched : CapacityAccountant := (c.touch loc owner).2

/-- The accountant after a call that succeeded. -/
def transferred (used held : UInt64) : CapacityAccountant :=
  { c with
    held := (c.touched loc owner).held.insert (loc, owner) held
    used := c.used.insert loc used }

theorem reserve_eq (bytes : UInt64) :
    c.reserve loc bytes owner =
      if c.heldBy loc owner ≠ 0 then
        (.error ⟨.doubleReservation,
          ascii "double reservation for " ++ owner ++ ascii " in " ++ loc.toBytes⟩,
          c.touched loc owner)
      else if bytes > c.limit loc - c.usedAt loc then
        (.error ⟨.capacityOvercommit, ascii "overcommit in " ++ loc.toBytes⟩, c.touched loc owner)
      else (.ok (), c.transferred loc owner (c.usedAt loc + bytes) bytes) :=
  rfl

theorem release_eq (bytes : UInt64) :
    c.release loc bytes owner =
      if c.heldBy loc owner = 0 then
        (.error ⟨.doubleRelease,
          ascii "double release for " ++ owner ++ ascii " in " ++ loc.toBytes⟩,
          c.touched loc owner)
      else if bytes > c.heldBy loc owner then
        (.error ⟨.capacityUnderflow,
          ascii "release exceeds reservation for " ++ owner ++ ascii " in " ++ loc.toBytes⟩,
          c.touched loc owner)
      else
        (.ok (), c.transferred loc owner (c.usedAt loc - bytes) (c.heldBy loc owner - bytes)) :=
  rfl

@[simp] theorem heldBy_touched :
    (c.touched loc owner).heldBy loc' owner' = c.heldBy loc' owner' := by
  show ((c.held.insertIfNew (loc, owner) 0)[((loc', owner') : HoldKey)]?).getD 0 = _
  rw [Table.insertIfNew_eq]
  split
  · rename_i hnew
    rw [Table.get_insert]
    by_cases hk : ((loc, owner) : HoldKey) = (loc', owner')
    · rw [if_pos hk, heldBy, ← hk, hnew]
      rfl
    · rw [if_neg hk]
      rfl
  · rfl

@[simp] theorem heldSum_touched : (c.touched loc owner).heldSum loc' = c.heldSum loc' :=
  Table.sum_insertIfNew _ _ (by split <;> rfl)

variable (used held : UInt64)

@[simp] theorem usedAt_transferred : (c.transferred loc owner used held).usedAt loc' =
    if loc = loc' then used else c.usedAt loc' := by
  show ((c.used.insert loc used)[loc']?).getD 0 = _
  rw [Table.get_insert]
  split <;> rfl

@[simp] theorem limit_transferred : (c.transferred loc owner used held).limit loc' = c.limit loc' :=
  rfl

@[simp] theorem heldBy_transferred : (c.transferred loc owner used held).heldBy loc' owner' =
    if loc = loc' ∧ owner = owner' then held else c.heldBy loc' owner' := by
  show (((c.touched loc owner).held.insert (loc, owner) held)[
    ((loc', owner') : HoldKey)]?).getD 0 = _
  rw [Table.get_insert]
  by_cases hk : loc = loc' ∧ owner = owner'
  · rw [if_pos hk, if_pos (Prod.ext hk.1 hk.2)]
    rfl
  · rw [if_neg hk, if_neg fun h => hk (Prod.ext_iff.mp h)]
    exact c.heldBy_touched loc loc' owner owner'

theorem heldSum_transferred : (c.transferred loc owner used held).heldSum loc' +
      (if loc = loc' then (c.heldBy loc owner).toNat else 0) =
    c.heldSum loc' + if loc = loc' then held.toNat else 0 := by
  have hsum := Table.sum_insert (fun (k : HoldKey) v => if k.1 = loc' then UInt64.toNat v else 0)
    (c.touched loc owner).held (loc, owner) held
  have hold : (c.touched loc owner).held[((loc, owner) : HoldKey)]?.elim 0
      (fun v => if loc = loc' then v.toNat else 0) =
      if loc = loc' then (c.heldBy loc owner).toNat else 0 := by
    rw [← c.heldBy_touched loc loc owner owner, heldBy]
    cases (c.touched loc owner).held[((loc, owner) : HoldKey)]? with
    | none => simp
    | some v => simp
  rw [← hold, ← c.heldSum_touched loc loc' owner]
  exact hsum

end Written

/-! ## What the calls tell apart -/

/-- The same but for zero entries of `held_`. -/
structure Same (c c' : CapacityAccountant) : Prop where
  used : c.used = c'.used
  limits : c.limits = c'.limits
  heldBy : ∀ loc owner, c.heldBy loc owner = c'.heldBy loc owner

/-- No further calls and no queries tell the two apart. -/
def Indistinguishable (c c' : CapacityAccountant) : Prop :=
  ∀ calls, outcomes calls c = outcomes calls c' ∧
    (after calls c).usage = (after calls c').usage ∧
    (after calls c).isClean = (after calls c').isClean ∧
    ∀ loc, (after calls c).usedAt loc = (after calls c').usedAt loc ∧
      (after calls c).limit loc = (after calls c').limit loc ∧
      (after calls c).free loc = (after calls c').free loc

namespace Same

variable {c c' : CapacityAccountant}

theorem usedAt (h : Same c c') (loc : ResidencyLocation) : c.usedAt loc = c'.usedAt loc := by
  simp [CapacityAccountant.usedAt, h.used]

theorem limit (h : Same c c') (loc : ResidencyLocation) : c.limit loc = c'.limit loc := by
  simp [CapacityAccountant.limit, h.limits]

theorem free (h : Same c c') (loc : ResidencyLocation) : c.free loc = c'.free loc := by
  simp [CapacityAccountant.free, h.usedAt, h.limit]

theorem isClean (h : Same c c') : c.isClean = c'.isClean := by
  simp [CapacityAccountant.isClean, h.used]

theorem touched (h : Same c c') (loc : ResidencyLocation) (owner : Bytes) :
    Same (c.touched loc owner) (c'.touched loc owner) where
  used := h.used
  limits := h.limits
  heldBy loc' owner' := by simp [h.heldBy]

theorem transferred (h : Same c c') (loc : ResidencyLocation) (owner : Bytes)
    (used held : UInt64) :
    Same (c.transferred loc owner used held) (c'.transferred loc owner used held) where
  used := by simp [CapacityAccountant.transferred, h.used]
  limits := h.limits
  heldBy loc' owner' := by simp [h.heldBy]

theorem setLimit (h : Same c c') (loc : ResidencyLocation) (bytes : UInt64) :
    Same (c.setLimit loc bytes) (c'.setLimit loc bytes) where
  used := h.used
  limits := by simp [CapacityAccountant.setLimit, h.limits]
  heldBy := h.heldBy

/-- The same call has the same outcome, and leaves the two the same. -/
theorem apply (h : Same c c') (call : Call) :
    (call.apply c).1 = (call.apply c').1 ∧ Same (call.apply c).2 (call.apply c').2 := by
  cases call with
  | reserve loc bytes owner =>
    simp only [Call.apply, reserve_eq, h.heldBy, h.limit, h.usedAt]
    split
    · exact ⟨rfl, h.touched loc owner⟩
    · split
      · exact ⟨rfl, h.touched loc owner⟩
      · exact ⟨rfl, h.transferred loc owner _ _⟩
  | release loc bytes owner =>
    simp only [Call.apply, release_eq, h.heldBy, h.usedAt]
    split
    · exact ⟨rfl, h.touched loc owner⟩
    · split
      · exact ⟨rfl, h.touched loc owner⟩
      · exact ⟨rfl, h.transferred loc owner _ _⟩
  | setLimit loc bytes => exact ⟨rfl, h.setLimit loc bytes⟩

theorem calls (h : Same c c') (calls : List Call) :
    outcomes calls c = outcomes calls c' ∧ Same (after calls c) (after calls c') := by
  induction calls generalizing c c' with
  | nil => exact ⟨rfl, h⟩
  | cons call calls ih =>
    obtain ⟨hresult, hnext⟩ := h.apply call
    obtain ⟨hrest, hend⟩ := ih hnext
    simp only [outcomes, hresult, hrest, true_and]
    exact hend

theorem indistinguishable (h : Same c c') : Indistinguishable c c' := by
  intro calls
  obtain ⟨hout, hend⟩ := h.calls calls
  exact ⟨hout, hend.used, hend.isClean,
    fun loc => ⟨hend.usedAt loc, hend.limit loc, hend.free loc⟩⟩

end Same

section Throws

variable (c : CapacityAccountant) (loc : ResidencyLocation) (owner : Bytes) (bytes : UInt64)

theorem same_touched : Same c (c.touched loc owner) where
  used := rfl
  limits := rfl
  heldBy loc' owner' := by simp

theorem reserve_cases :
    (c.heldBy loc owner ≠ 0 ∨ c.limit loc - c.usedAt loc < bytes) ∧
        (∃ e, (c.reserve loc bytes owner).1 = .error e) ∧
        (c.reserve loc bytes owner).2 = c.touched loc owner ∨
      c.heldBy loc owner = 0 ∧ bytes ≤ c.limit loc - c.usedAt loc ∧
        c.reserve loc bytes owner =
          (.ok (), c.transferred loc owner (c.usedAt loc + bytes) bytes) := by
  rw [reserve_eq]
  split
  · rename_i hheld
    exact .inl ⟨.inl hheld, ⟨_, rfl⟩, rfl⟩
  · rename_i hheld
    split
    · rename_i hroom
      exact .inl ⟨.inr hroom, ⟨_, rfl⟩, rfl⟩
    · rename_i hroom
      exact .inr ⟨not_not.mp hheld, UInt64.not_lt.mp hroom, rfl⟩

theorem release_cases :
    (∃ e, (c.release loc bytes owner).1 = .error e) ∧
        (c.release loc bytes owner).2 = c.touched loc owner ∨
      c.heldBy loc owner ≠ 0 ∧ bytes ≤ c.heldBy loc owner ∧
        c.release loc bytes owner = (.ok (),
          c.transferred loc owner (c.usedAt loc - bytes) (c.heldBy loc owner - bytes)) := by
  rw [release_eq]
  split
  · exact .inl ⟨⟨_, rfl⟩, rfl⟩
  · rename_i hheld
    split
    · exact .inl ⟨⟨_, rfl⟩, rfl⟩
    · rename_i hroom
      exact .inr ⟨hheld, UInt64.not_lt.mp hroom, rfl⟩

theorem Call.same_of_error {call : Call} {e : Error} (h : (call.apply c).1 = .error e) :
    Same c (call.apply c).2 := by
  cases call with
  | reserve loc bytes owner =>
    rcases reserve_cases c loc owner bytes with ⟨-, -, heq⟩ | ⟨-, -, heq⟩
    · simp only [Call.apply, heq]
      exact same_touched c loc owner
    · simp [Call.apply, heq] at h
  | release loc bytes owner =>
    rcases release_cases c loc owner bytes with ⟨-, heq⟩ | ⟨-, -, heq⟩
    · simp only [Call.apply, heq]
      exact same_touched c loc owner
    · simp [Call.apply, heq] at h
  | setLimit loc bytes => simp [Call.apply] at h

end Throws

/-! ## Exact books -/

/-- What is used is what is held, and within the limit. -/
def Exact (c : CapacityAccountant) : Prop :=
  ∀ loc, (c.usedAt loc).toNat = c.heldSum loc ∧ c.usedAt loc ≤ c.limit loc

section Exact

variable {c : CapacityAccountant} {loc : ResidencyLocation} {owner : Bytes} {bytes : UInt64}

theorem used_constructed (h : Constructed c) (loc : ResidencyLocation) : c.usedAt loc = 0 := by
  cases h with
  | default => rfl
  | ofLimits limits => cases loc <;> rfl

theorem held_constructed (h : Constructed c) : c.held = ∅ := by
  cases h <;> rfl

theorem exact_constructed (h : Constructed c) : c.Exact := by
  intro loc
  rw [used_constructed h loc, heldSum, held_constructed h, Table.sum_empty]
  exact ⟨rfl, UInt64.zero_le⟩

theorem Exact.touched (h : c.Exact) (loc : ResidencyLocation) (owner : Bytes) :
    (c.touched loc owner).Exact := by
  intro loc'
  rw [heldSum_touched]
  exact h loc'

theorem Exact.heldBy_le (h : c.Exact) (loc : ResidencyLocation) (owner : Bytes) :
    (c.heldBy loc owner).toNat ≤ (c.usedAt loc).toNat := by
  rw [(h loc).1, heldBy]
  cases hk : c.held[((loc, owner) : HoldKey)]? with
  | none => exact Nat.zero_le _
  | some v =>
    have hle := Table.le_sum (fun (k : HoldKey) v => if k.1 = loc then UInt64.toNat v else 0) hk
    rwa [if_pos rfl] at hle

theorem Exact.transferred (h : c.Exact) {used held : UInt64}
    (hmoved : used.toNat + (c.heldBy loc owner).toNat = (c.usedAt loc).toNat + held.toNat)
    (hlimit : used ≤ c.limit loc) : (c.transferred loc owner used held).Exact := by
  intro loc'
  obtain ⟨hused, hle⟩ := h loc'
  have hsum := heldSum_transferred c loc loc' owner used held
  rw [usedAt_transferred, limit_transferred]
  by_cases hloc : loc = loc'
  · subst hloc
    simp only [if_true] at hsum ⊢
    exact ⟨by omega, hlimit⟩
  · simp only [if_neg hloc] at hsum ⊢
    exact ⟨by omega, hle⟩

/-- Without wrapping: what is free is what the limit leaves. -/
theorem Exact.sub_toNat (h : c.Exact) (loc : ResidencyLocation) :
    (c.limit loc - c.usedAt loc).toNat = (c.limit loc).toNat - (c.usedAt loc).toNat :=
  UInt64.toNat_sub_of_le _ _ (h loc).2

theorem Exact.free (h : c.Exact) (loc : ResidencyLocation) :
    (c.free loc).toNat = (c.limit loc).toNat - (c.usedAt loc).toNat := by
  unfold CapacityAccountant.free
  split
  · exact h.sub_toNat loc
  · rename_i hge
    have := UInt64.le_iff_toNat_le.mp (UInt64.not_lt.mp hge)
    have hzero : (0 : UInt64).toNat = 0 := rfl
    omega

theorem Exact.reserve (h : c.Exact) (loc : ResidencyLocation) (bytes : UInt64) (owner : Bytes) :
    (c.reserve loc bytes owner).2.Exact := by
  rcases reserve_cases c loc owner bytes with
    ⟨-, -, heq⟩ | ⟨hheld, hroom, heq⟩
  · rw [heq]
    exact h.touched loc owner
  · have hroom := UInt64.le_iff_toNat_le.mp hroom
    rw [h.sub_toNat] at hroom
    have hle := UInt64.le_iff_toNat_le.mp (h loc).2
    have hlt := (c.limit loc).toNat_lt
    have hadd : (c.usedAt loc + bytes).toNat = (c.usedAt loc).toNat + bytes.toNat := by
      rw [UInt64.toNat_add]
      omega
    rw [heq]
    refine h.transferred ?_ (UInt64.le_iff_toNat_le.mpr (by omega))
    rw [hheld, hadd]
    rfl

theorem Exact.release (h : c.Exact) (loc : ResidencyLocation) (bytes : UInt64) (owner : Bytes) :
    (c.release loc bytes owner).2.Exact := by
  rcases release_cases c loc owner bytes with
    ⟨-, heq⟩ | ⟨-, hheld, heq⟩
  · rw [heq]
    exact h.touched loc owner
  · have hle := UInt64.le_iff_toNat_le.mp hheld
    have hused := h.heldBy_le loc owner
    have hlimit := UInt64.le_iff_toNat_le.mp (h loc).2
    have hsub : (c.usedAt loc - bytes).toNat = (c.usedAt loc).toNat - bytes.toNat :=
      UInt64.toNat_sub_of_le _ _ (UInt64.le_iff_toNat_le.mpr (by omega))
    have hsub' : (c.heldBy loc owner - bytes).toNat = (c.heldBy loc owner).toNat - bytes.toNat :=
      UInt64.toNat_sub_of_le _ _ hheld
    rw [heq]
    refine h.transferred ?_ (UInt64.le_iff_toNat_le.mpr ?_)
    · omega
    · omega

theorem Exact.after {calls : List Call} (hcalls : ∀ call ∈ calls, call.isTransfer = true)
    (h : c.Exact) : (after calls c).Exact := by
  refine Run.exec_preserves (fun call hmem c hc => ?_) h
  cases call with
  | reserve loc bytes owner => exact hc.reserve loc bytes owner
  | release loc bytes owner => exact hc.release loc bytes owner
  | setLimit loc bytes => cases hcalls _ hmem

theorem isClean_iff_used : c.isClean = true ↔ ∀ loc, c.usedAt loc = 0 := by
  simp only [isClean, List.all_eq_true, decide_eq_true_eq, Prod.forall, usedAt,
    ExtTreeMap.mem_toList_iff_getElem?_eq_some]
  constructor
  · intro h loc
    cases hloc : c.used[loc]? with
    | none => rfl
    | some v => exact h loc v hloc
  · intro h loc v hv
    have := h loc
    rwa [hv] at this

theorem Exact.isClean_iff (h : c.Exact) :
    c.isClean = true ↔ ∀ loc owner, c.heldBy loc owner = 0 := by
  rw [isClean_iff_used]
  constructor
  · intro hused loc owner
    have hle := h.heldBy_le loc owner
    rw [hused loc] at hle
    exact UInt64.toNat_inj.mp (Nat.le_zero.mp hle)
  · intro hheld loc
    have hsum : c.heldSum loc = 0 := by
      refine (Table.sum_eq_zero_iff _).mpr fun k v hv => ?_
      obtain ⟨loc', owner⟩ := k
      have := hheld loc' owner
      rw [heldBy, hv, Option.getD_some] at this
      rw [this]
      split <;> rfl
    refine UInt64.toNat_inj.mp ?_
    rw [(h loc).1, hsum]
    rfl

end Exact

/-! ## Giving everything back -/

/-- One release in full for each of the holders. -/
def releaseAll (c : CapacityAccountant) (holders : List HoldKey) : List Call :=
  holders.map fun k => .release k.1 (c.heldBy k.1 k.2) k.2

/-- The holders are those who hold something. -/
def AllHolders (c : CapacityAccountant) (holders : List HoldKey) : Prop :=
  holders.Nodup ∧ ∀ loc owner, (loc, owner) ∈ holders ↔ c.heldBy loc owner ≠ 0

/-- The accountant after the holding of one owner was released in full. -/
def released (c : CapacityAccountant) (k : HoldKey) : CapacityAccountant :=
  c.transferred k.1 k.2 (c.usedAt k.1 - c.heldBy k.1 k.2) 0

section ReleaseAll

variable {c : CapacityAccountant} {k : HoldKey} {holders : List HoldKey}

theorem release_full (h : c.heldBy k.1 k.2 ≠ 0) :
    c.release k.1 (c.heldBy k.1 k.2) k.2 = (.ok (), c.released k) := by
  rw [release_eq, if_neg h, if_neg (UInt64.lt_irrefl _), UInt64.sub_self]
  rfl

@[simp] theorem heldBy_released (loc : ResidencyLocation) (owner : Bytes) :
    (c.released k).heldBy loc owner = if k = (loc, owner) then 0 else c.heldBy loc owner := by
  rw [released, heldBy_transferred]
  exact if_congr (Prod.ext_iff (y := (loc, owner))).symm rfl rfl

theorem AllHolders.tail (h : c.AllHolders (k :: holders)) : (c.released k).AllHolders holders := by
  obtain ⟨hnodup, hall⟩ := h
  obtain ⟨hk, hnodup⟩ := List.nodup_cons.mp hnodup
  refine ⟨hnodup, fun loc owner => ?_⟩
  rw [heldBy_released]
  by_cases heq : k = (loc, owner)
  · rw [if_pos heq, ← heq]
    exact ⟨fun hmem => absurd hmem hk, fun hne => absurd rfl hne⟩
  · rw [if_neg heq, ← hall, List.mem_cons]
    exact ⟨.inr, fun hmem => hmem.resolve_left (Ne.symm heq)⟩

/-- The amounts still to be released are not changed by the first release. -/
theorem AllHolders.releaseAll_tail (h : c.AllHolders (k :: holders)) :
    c.releaseAll holders = (c.released k).releaseAll holders := by
  refine List.map_congr_left fun k' hk' => ?_
  have hne : k ≠ (k'.1, k'.2) := by
    rintro rfl
    exact (List.nodup_cons.mp h.1).1 hk'
  rw [heldBy_released, if_neg hne]

theorem Exact.releaseAll (h : c.Exact) (hall : c.AllHolders holders) :
    (∀ result ∈ outcomes (c.releaseAll holders) c, result = .ok ()) ∧
      (CapacityAccountant.after (c.releaseAll holders) c).isClean = true := by
  induction holders generalizing c with
  | nil =>
    refine ⟨by simp [CapacityAccountant.releaseAll, outcomes],
      h.isClean_iff.mpr fun loc owner => ?_⟩
    by_contra hne
    have := (hall.2 loc owner).mpr hne
    simp at this
  | cons k holders ih =>
    have hfull : c.release k.1 (c.heldBy k.1 k.2) k.2 = (.ok (), c.released k) :=
      release_full ((hall.2 k.1 k.2).mp (by simp))
    have hnext : (c.released k).Exact := by
      have := h.release k.1 (c.heldBy k.1 k.2) k.2
      rwa [hfull] at this
    obtain ⟨hok, hclean⟩ := ih hnext hall.tail
    rw [← hall.releaseAll_tail] at hok hclean
    simp only [CapacityAccountant.releaseAll, List.map_cons, outcomes, Call.apply, hfull,
      List.mem_cons, forall_eq_or_imp, true_and, CapacityAccountant.after, Run.exec_cons]
    exact ⟨hok, hclean⟩

end ReleaseAll

/-! ## Reservations and releases -/

/-- Without `set_limit` the books are exact, a call that throws is as if it had not been made, and
everything can be given back in any order. -/
theorem exact_accounting {c₀ : CapacityAccountant} (hc₀ : Constructed c₀) (calls : List Call)
    (hcalls : ∀ call ∈ calls, call.isTransfer = true) :
    (∀ loc, ((after calls c₀).usedAt loc).toNat = (after calls c₀).heldSum loc ∧
      (after calls c₀).usedAt loc ≤ (after calls c₀).limit loc ∧
      ((after calls c₀).free loc).toNat =
        ((after calls c₀).limit loc).toNat - ((after calls c₀).usedAt loc).toNat) ∧
    ((after calls c₀).isClean = true ↔ ∀ loc owner, (after calls c₀).heldBy loc owner = 0) ∧
    (∀ (call : Call) (e : Error), (call.apply (after calls c₀)).1 = .error e →
      Indistinguishable (after calls c₀) (call.apply (after calls c₀)).2) ∧
    ∀ holders, (after calls c₀).AllHolders holders →
      (∀ result ∈ outcomes ((after calls c₀).releaseAll holders) (after calls c₀),
        result = .ok ()) ∧
      (after ((after calls c₀).releaseAll holders) (after calls c₀)).isClean = true := by
  have hexact := (exact_constructed hc₀).after hcalls
  refine ⟨fun loc => ⟨(hexact loc).1, (hexact loc).2, hexact.free loc⟩, hexact.isClean_iff,
    fun call e herr => (Call.same_of_error _ herr).indistinguishable, fun holders hall => ?_⟩
  exact hexact.releaseAll hall

/-- One location with room for 100 bytes. -/
def sampleAccountant : CapacityAccountant :=
  .ofLimits
    ((∅ : ExtTreeMap ResidencyLocation UInt64 ResidencyLocation.cmp).insert .deviceMemory 100)

/-- Two owners, the second one refused. -/
def sampleTransfers : List Call :=
  [.reserve .deviceMemory 60 (ascii "a"), .reserve .deviceMemory 60 (ascii "b")]

theorem exact_accounting_sample :
    ((after sampleTransfers sampleAccountant).usedAt .deviceMemory).toNat =
        (after sampleTransfers sampleAccountant).heldSum .deviceMemory ∧
      (after sampleTransfers sampleAccountant).usedAt .deviceMemory = 60 :=
  ⟨((exact_accounting (.ofLimits _) sampleTransfers (by simp [sampleTransfers, Call.isTransfer])).1
    .deviceMemory).1, by decide +kernel⟩

/-! ## Over the limit -/

/-- A reservation that succeeds stays within the limit, and nothing wraps. -/
def Call.Commits (c : CapacityAccountant) : Call → Prop
  | reserve loc bytes owner =>
    (c.reserve loc bytes owner).1 = .ok () →
      (c.reserve loc bytes owner).2.usedAt loc ≤ (c.reserve loc bytes owner).2.limit loc ∧
        ((c.reserve loc bytes owner).2.usedAt loc).toNat = (c.usedAt loc).toNat + bytes.toNat
  | _ => True

/-- A reservation over the limit is for an owner who holds something, or for more bytes than the
wrapped difference leaves. -/
def Call.Fits (c : CapacityAccountant) : Call → Prop
  | reserve loc bytes owner =>
    c.limit loc < c.usedAt loc →
      c.heldBy loc owner ≠ 0 ∨
        2 ^ 64 + (c.limit loc).toNat < (c.usedAt loc).toNat + bytes.toNat
  | _ => True

section Over

variable {c : CapacityAccountant} {loc : ResidencyLocation} {bytes : UInt64}

theorem sub_toNat_of_over (h : c.limit loc < c.usedAt loc) :
    (c.limit loc - c.usedAt loc).toNat + (c.usedAt loc).toNat = 2 ^ 64 + (c.limit loc).toNat := by
  have hlt := UInt64.lt_iff_toNat_lt.mp h
  have hused := (c.usedAt loc).toNat_lt
  rw [UInt64.toNat_sub]
  omega

theorem lt_sub_iff_of_over (h : c.limit loc < c.usedAt loc) :
    c.limit loc - c.usedAt loc < bytes ↔
      2 ^ 64 + (c.limit loc).toNat < (c.usedAt loc).toNat + bytes.toNat := by
  have hsub := sub_toNat_of_over h
  rw [UInt64.lt_iff_toNat_lt]
  omega

theorem add_toNat_of_within (h : c.usedAt loc ≤ c.limit loc)
    (hroom : bytes ≤ c.limit loc - c.usedAt loc) :
    (c.usedAt loc + bytes).toNat = (c.usedAt loc).toNat + bytes.toNat ∧
      (c.usedAt loc).toNat + bytes.toNat ≤ (c.limit loc).toNat := by
  have hroom := UInt64.le_iff_toNat_le.mp hroom
  rw [UInt64.toNat_sub_of_le _ _ h] at hroom
  have hle := UInt64.le_iff_toNat_le.mp h
  have hlt := (c.limit loc).toNat_lt
  rw [UInt64.toNat_add]
  omega

end Over

theorem Call.commits_iff (c : CapacityAccountant) (call : Call) : call.Commits c ↔ call.Fits c := by
  cases call with
  | release loc bytes owner => exact Iff.rfl
  | setLimit loc bytes => exact Iff.rfl
  | reserve loc bytes owner =>
    simp only [Call.Commits, Call.Fits]
    rcases reserve_cases c loc owner bytes with ⟨hwhy, ⟨e, herr⟩, -⟩ | ⟨hheld, hroom, heq⟩
    · -- refused, and for one of the two reasons
      simp only [herr, reduceCtorEq, false_implies, true_iff]
      intro hover
      exact hwhy.imp_right (lt_sub_iff_of_over hover).mp
    · simp only [heq, usedAt_transferred, limit_transferred, if_true, true_implies, hheld,
        ne_eq, not_true, false_or]
      constructor
      · -- what grew without wrapping was not over the limit before
        rintro ⟨hle, hadd⟩ hover
        have hle := UInt64.le_iff_toNat_le.mp hle
        have hover := UInt64.lt_iff_toNat_lt.mp hover
        omega
      · intro hfits
        by_cases hover : c.limit loc < c.usedAt loc
        · exact absurd hroom (UInt64.not_le.mpr ((lt_sub_iff_of_over hover).mpr (hfits hover)))
        · obtain ⟨hadd, hle⟩ := add_toNat_of_within (UInt64.not_lt.mp hover) hroom
          exact ⟨UInt64.le_iff_toNat_le.mpr (by omega), hadd⟩

/-- The reservations of a run that succeed stay within the limits exactly when none of them comes
over the limit without being refused for another reason. -/
theorem no_overcommit_iff (c₀ : CapacityAccountant) (calls : List Call) :
    (∀ pre call, pre ++ [call] <+: calls → call.Commits (after pre c₀)) ↔
      ∀ pre call, pre ++ [call] <+: calls → call.Fits (after pre c₀) :=
  forall₃_congr fun pre call _ => call.commits_iff (after pre c₀)

/-- All 100 bytes reserved, the limit lowered to 50, and one byte more. -/
def overCalls : List Call :=
  [.reserve .deviceMemory 100 (ascii "a"), .setLimit .deviceMemory 50,
    .reserve .deviceMemory 1 (ascii "b")]

/-- `50 - 100` wraps, so the byte is granted, and 101 bytes are used of 50. -/
theorem overcommit_counterexample :
    ¬ ∀ c₀, Constructed c₀ → ∀ (calls pre : List Call) (call : Call), pre ++ [call] <+: calls →
      call.Commits (after pre c₀) := by
  intro h
  have hover := (h sampleAccountant (.ofLimits _) overCalls (overCalls.take 2)
    (.reserve .deviceMemory 1 (ascii "b")) (List.prefix_refl _) (by decide +kernel)).1
  revert hover
  decide +kernel

/-! ## Limits that are kept above what is used -/

/-- A limit is not set below what is used. -/
def Call.Covers (c : CapacityAccountant) : Call → Prop
  | setLimit loc bytes => c.usedAt loc ≤ bytes
  | _ => True

theorem Exact.setLimit_iff {c : CapacityAccountant} (h : c.Exact) (loc : ResidencyLocation)
    (bytes : UInt64) : (c.setLimit loc bytes).Exact ↔ c.usedAt loc ≤ bytes := by
  have hlimit : ∀ loc', (c.setLimit loc bytes).limit loc' =
      if loc = loc' then bytes else c.limit loc' := by
    intro loc'
    show ((c.limits.insert loc bytes)[loc']?).getD 0 = _
    rw [Table.get_insert]
    split <;> rfl
  constructor
  · intro hset
    have := (hset loc).2
    rwa [hlimit, if_pos rfl] at this
  · intro hle loc'
    refine ⟨(h loc').1, ?_⟩
    rw [hlimit]
    split
    · rename_i heq
      exact heq ▸ hle
    · exact (h loc').2

/-- The books stay exact along a run exactly when no limit is set below what is used. -/
theorem exact_iff_covers {c₀ : CapacityAccountant} (hc₀ : Constructed c₀) (calls : List Call) :
    (∀ pre, pre <+: calls → (after pre c₀).Exact) ↔
      ∀ pre call, pre ++ [call] <+: calls → call.Covers (after pre c₀) := by
  refine Run.exec_always_iff (I := fun _ => True) trivial (exact_constructed hc₀)
    (fun _ _ _ _ => trivial) fun call _ c _ hc => ?_
  cases call with
  | reserve loc bytes owner => exact iff_of_true (hc.reserve loc bytes owner) trivial
  | release loc bytes owner => exact iff_of_true (hc.release loc bytes owner) trivial
  | setLimit loc bytes => exact hc.setLimit_iff loc bytes

/-- Along such a run every reservation that succeeds stays within the limit. -/
theorem commits_of_covers {c₀ : CapacityAccountant} (hc₀ : Constructed c₀) {calls : List Call}
    (hcalls : ∀ pre call, pre ++ [call] <+: calls → call.Covers (after pre c₀)) {pre : List Call}
    {call : Call} (hpre : pre ++ [call] <+: calls) : call.Commits (after pre c₀) := by
  have hexact := (exact_iff_covers hc₀ calls).mpr hcalls pre
    ((List.prefix_append _ _).trans hpre)
  rw [Call.commits_iff]
  cases call with
  | reserve loc bytes owner => exact fun hover => absurd (hexact loc).2 (UInt64.not_le.mpr hover)
  | release loc bytes owner => trivial
  | setLimit loc bytes => trivial

end CapacityAccountant

end AdapterFabric
