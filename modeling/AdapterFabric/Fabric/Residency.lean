import AdapterFabric.Fabric.Step

/-!
# AdapterFabric.Fabric.Residency

Residencies across one operation (`fabric.cpp`).

* `residency_cases`: a residency is fresh, or it was there before and is pinned, unpinned, marked
  ready, made unready, or kept.
-/

namespace AdapterFabric

open Std

namespace Fabric

/-- What `pin` makes of a residency. -/
def pinned (r : ResidencyRecord) : ResidencyRecord :=
  { r with pinCount := r.pinCount + 1, protected_ := true }

/-- What `unpin` makes of a residency. -/
def unpinned (r : ResidencyRecord) : ResidencyRecord :=
  let pinCount := if r.pinCount > 0 then r.pinCount - 1 else r.pinCount
  { r with pinCount, protected_ := if pinCount = 0 then false else r.protected_ }

section Cases

variable {f : Fabric} {op : Op} {inst : AdapterInstanceId} {r' : ResidencyRecord}

/-- One residency, if there is one, is changed. -/
def changeResidency (f : Fabric) (inst : AdapterInstanceId)
    (change : ResidencyRecord → ResidencyRecord) : Fabric :=
  { f with residencies := f.residencies.modify inst.str change }

theorem residency_changeResidency (inst' : AdapterInstanceId)
    (change : ResidencyRecord → ResidencyRecord) :
    (f.changeResidency inst' change).residency inst =
      if inst' = inst then (f.residency inst).map change else f.residency inst := by
  simp only [residency, changeResidency, Table.get_modify, Id.str_eq_iff]

theorem changeResidency_none {change : ResidencyRecord → ResidencyRecord}
    (h : f.residency inst = none) : f.changeResidency inst change = f := by
  have hsame : f.residencies.modify inst.str change = f.residencies :=
    Table.modify_eq_self.mpr fun v hv => nomatch h.symm.trans hv
  rw [changeResidency, hsame]

theorem pin_eq (f : Fabric) (inst : AdapterInstanceId) :
    (f.pin inst).2 = f.changeResidency inst pinned := by
  unfold pin
  cases hr : f.residency inst with
  | none => rw [changeResidency_none hr]
  | some r => rw [changeResidency, Table.modify_eq_insert hr]; rfl

theorem unpin_eq (f : Fabric) (inst : AdapterInstanceId) :
    (f.unpin inst).2 = f.changeResidency inst unpinned := by
  unfold unpin
  cases hr : f.residency inst with
  | none => rw [changeResidency_none hr]
  | some r => rw [changeResidency, Table.modify_eq_insert hr]; rfl

theorem residency_unready (lost : ResidencyRecord → Prop) [DecidablePred lost]
    {migration : ResidencyRecord → MigrationState} {k : Bytes}
    (h : (f.residencies.map fun _ r =>
      if lost r then { r with ready := false, migration := migration r } else r)[k]? = some r') :
    ∃ r, f.residencies[k]? = some r ∧
      (r' = r ∨ ∃ migration, r' = { r with ready := false, migration }) := by
  rw [ExtTreeMap.getElem?_map] at h
  obtain ⟨r, hr, rfl⟩ := Option.map_eq_some_iff.mp h
  refine ⟨r, hr, ?_⟩
  split
  · exact .inr ⟨migration r, rfl⟩
  · exact .inl rfl

/-- A residency is fresh, or it was there before and is pinned, unpinned, marked ready, made
unready, or kept. -/
theorem residency_cases (h : (op.apply f).residency inst = some r') :
    (∃ adapter worker boot device bytes rng d,
      op = .createInstance adapter worker boot device bytes rng ∧ drawn rng = inst ∧
      f.adapter adapter = some d ∧
      r' = f.freshResidency d adapter worker boot device bytes inst) ∨
    ∃ r, f.residency inst = some r ∧
      ((op = .pin inst ∧ r' = pinned r) ∨ (op = .unpin inst ∧ r' = unpinned r) ∨
        (∃ bytes, op = .markReady inst bytes ∧ r' = { r with ready := true, bytes }) ∨
        op ≠ .pin inst ∧ op ≠ .unpin inst ∧
          (r' = r ∨ ∃ migration, r' = { r with ready := false, migration })) := by
  cases op with
  | registerAdapter d =>
    refine .inr ⟨r', ?_, .inr (.inr (.inr ⟨by simp, by simp, .inl rfl⟩))⟩
    obtain ⟨_, _, he⟩ := registerAdapter_frame f d
    simp only [Op.apply, he] at h
    exact h
  | publishComposition ordered policy rng =>
    refine .inr ⟨r', ?_, .inr (.inr (.inr ⟨by simp, by simp, .inl rfl⟩))⟩
    obtain ⟨_, _, he⟩ := publishComposition_frame f ordered policy rng
    simp only [Op.apply, he] at h
    exact h
  | bindAuthority id fence =>
    refine .inr ⟨r', ?_, .inr (.inr (.inr ⟨by simp, by simp, .inl rfl⟩))⟩
    obtain ⟨_, _, _, he⟩ := bindAuthority_frame f id fence
    simp only [Op.apply, he] at h
    exact h
  | createInstance adapter worker boot device bytes rng =>
    cases hd : f.adapter adapter with
    | none =>
      simp only [Op.apply, createInstance_none worker boot device bytes rng hd] at h
      exact .inr ⟨r', h, .inr (.inr (.inr ⟨by simp, by simp, .inl rfl⟩))⟩
    | some d =>
      simp only [Op.apply, createInstance_some worker boot device bytes rng hd] at h
      rcases Table.of_insert h with ⟨hkey, rfl⟩ | h
      · obtain rfl := Id.str_inj hkey
        exact .inl ⟨adapter, worker, boot, device, bytes, rng, d, rfl, rfl, hd, rfl⟩
      · exact .inr ⟨r', h, .inr (.inr (.inr ⟨by simp, by simp, .inl rfl⟩))⟩
  | evict inst' =>
    refine .inr ⟨r', ?_, .inr (.inr (.inr ⟨by simp, by simp, .inl rfl⟩))⟩
    simp only [Op.apply, evict] at h
    split at h
    · exact h
    · split at h
      · exact h
      · split at h
        · exact h
        · exact Table.of_erase h
  | pin inst' =>
    have h : (f.pin inst').2.residency inst = some r' := h
    rw [pin_eq, residency_changeResidency] at h
    by_cases hi : inst' = inst
    · rw [if_pos hi] at h
      obtain ⟨r, hr, rfl⟩ := Option.map_eq_some_iff.mp h
      exact .inr ⟨r, hr, .inl ⟨by rw [hi], rfl⟩⟩
    · rw [if_neg hi] at h
      exact .inr ⟨r', h, .inr (.inr (.inr ⟨by simpa using hi, by simp, .inl rfl⟩))⟩
  | unpin inst' =>
    have h : (f.unpin inst').2.residency inst = some r' := h
    rw [unpin_eq, residency_changeResidency] at h
    by_cases hi : inst' = inst
    · rw [if_pos hi] at h
      obtain ⟨r, hr, rfl⟩ := Option.map_eq_some_iff.mp h
      exact .inr ⟨r, hr, .inr (.inl ⟨by rw [hi], rfl⟩)⟩
    · rw [if_neg hi] at h
      exact .inr ⟨r', h, .inr (.inr (.inr ⟨by simp, by simpa using hi, .inl rfl⟩))⟩
  | markReady inst' bytes =>
    have h : (f.changeResidency inst' fun r => { r with ready := true, bytes }).residency inst =
      some r' := h
    rw [residency_changeResidency] at h
    by_cases hi : inst' = inst
    · rw [if_pos hi] at h
      obtain ⟨r, hr, rfl⟩ := Option.map_eq_some_iff.mp h
      exact .inr ⟨r, hr, .inr (.inr (.inl ⟨bytes, by rw [hi], rfl⟩))⟩
    · rw [if_neg hi] at h
      exact .inr ⟨r', h, .inr (.inr (.inr ⟨by simp, by simp, .inl rfl⟩))⟩
  | onWorkerDown id =>
    obtain ⟨r, hr, hkept⟩ := residency_unready (fun r => r.worker = id) h
    exact .inr ⟨r, hr, .inr (.inr (.inr ⟨by simp, by simp, hkept⟩))⟩
  | onWorkerRestart id boot =>
    obtain ⟨r, hr, hkept⟩ := residency_unready (fun r => r.worker = id ∧ r.boot ≠ boot) h
    exact .inr ⟨r, hr, .inr (.inr (.inr ⟨by simp, by simp, hkept⟩))⟩
  | _ => exact .inr ⟨r', h, .inr (.inr (.inr ⟨by simp, by simp, .inl rfl⟩))⟩

end Cases

end Fabric

end AdapterFabric
