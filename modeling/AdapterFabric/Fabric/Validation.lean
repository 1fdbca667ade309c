import AdapterFabric.Fabric.Currency
import AdapterFabric.Fabric.Lifecycle
import AdapterFabric.Fabric.Residency

/-!
# AdapterFabric.Fabric.Validation

Ready adapters and their validation evidence across one operation (`adapter.hpp`, `fabric.cpp`).

* `readied_cases`: an adapter is ready after an operation that readies it, or was ready before.
* `readyValid_apply_iff`: an operation leaves every ready adapter valid exactly when it readies only
  valid ones, and registers no other evidence for one that is ready.
-/

namespace AdapterFabric

namespace Fabric

/-- The adapter is registered with evidence that it is valid. -/
def Validated (f : Fabric) (id : AdapterId) : Prop :=
  ∃ d, f.adapter id = some d ∧ d.validation = .valid

/-- The authority record of the adapter is ready or active, or a residency of it is ready. -/
def Readied (f : Fabric) (id : AdapterId) : Prop :=
  (∃ ar, f.authorityRecord id = some ar ∧ (ar.lifecycle = .ready ∨ ar.lifecycle = .active)) ∨
    ∃ inst r, f.residency inst = some r ∧ r.ready = true ∧ r.adapterId = id

/-- READY requires VALID. -/
def ReadyValid (f : Fabric) : Prop := ∀ id, f.Readied id → f.Validated id

namespace Op

/-- A bind that goes through, a write to a record that exists, and a load that is acknowledged for
an instance that does, ready an adapter. -/
def Readies (f : Fabric) (id : AdapterId) : Op → Prop
  | bindAuthority id' fence =>
    id' = id ∧ (f.checkFence fence).authorized = true ∧
      (∀ held, f.activeFence = some held → held.adapter = id') ∧
      ∃ ar, f.authorityRecord id' = some ar
  | setLifecycle id' s =>
    id' = id ∧ (s = .ready ∨ s = .active) ∧ ∃ ar, f.authorityRecord id' = some ar
  | markReady inst _ => ∃ r, f.residency inst = some r ∧ r.adapterId = id
  | _ => False

/-- What the operation readies is valid, and it registers no other evidence for what is ready. -/
structure FindsValid (f : Fabric) (op : Op) : Prop where
  readies : ∀ id, op.Readies f id → f.Validated id
  registers : ∀ d, op = .registerAdapter d → Registrable d → d.validation ≠ .valid →
    ¬ f.Readied d.id

/-- The operation neither registers an adapter nor readies one. -/
def isInert : Op → Bool
  | registerAdapter _ => false
  | bindAuthority _ _ => false
  | setLifecycle _ _ => false
  | markReady _ _ => false
  | _ => true

theorem findsValid_of_inert {op : Op} (h : op.isInert = true) (f : Fabric) : op.FindsValid f := by
  cases op with
  | registerAdapter d => cases h
  | bindAuthority id fence => cases h
  | setLifecycle id s => cases h
  | markReady inst bytes => cases h
  | _ => exact ⟨nofun, nofun⟩

end Op

section Apply

variable {f : Fabric} {op : Op} {id : AdapterId}

theorem readied_cases (h : (op.apply f).Readied id) : f.Readied id ∨ op.Readies f id := by
  rcases h with ⟨ar', har', hl⟩ | ⟨inst, r', hr', hready, hid⟩
  · rcases record_cases har' with ⟨_, _, _, _, _, _, _, -, -, -, rfl⟩ | ⟨ar, har, hcases⟩
    · -- a fresh record is loading
      rcases hl with hl | hl <;> cases hl
    · rcases hcases with ⟨id', fence, rfl, hk, hauth, hfree, -⟩ | rfl | rfl | ⟨id', s, rfl, hk, rfl⟩
      · obtain rfl := Id.str_inj hk
        exact .inr ⟨rfl, hauth, hfree, ar, har⟩
      · exact .inl (.inl ⟨_, har, hl⟩)
      · rcases hl with hl | hl <;> cases hl
      · obtain rfl := Id.str_inj hk
        exact .inr ⟨rfl, hl, ar, har⟩
  · rcases residency_cases hr' with ⟨_, _, _, _, _, _, _, -, -, -, rfl⟩ | ⟨r, hr, hcases⟩
    · cases hready
    · rcases hcases with ⟨-, rfl⟩ | ⟨-, rfl⟩ | ⟨bytes, rfl, rfl⟩ | ⟨-, -, rfl | ⟨_, rfl⟩⟩
      · exact .inl (.inr ⟨inst, r, hr, hready, hid⟩)
      · exact .inl (.inr ⟨inst, r, hr, hready, hid⟩)
      · exact .inr ⟨r, hr, hid⟩
      · exact .inl (.inr ⟨inst, _, hr, hready, hid⟩)
      · cases hready

theorem readied_of_readies (h : op.Readies f id) : (op.apply f).Readied id := by
  cases op with
  | bindAuthority id' fence =>
    obtain ⟨rfl, hauth, hfree, ar, har⟩ := h
    exact .inl ⟨_, bindAuthority_grants hauth hfree har, .inr rfl⟩
  | setLifecycle id' s =>
    obtain ⟨rfl, hs, ar, har⟩ := h
    refine .inl ⟨{ ar with lifecycle := s }, ?_, hs⟩
    show (f.authority.modify id'.str _)[id'.str]? = _
    rw [Table.get_modify, if_pos rfl, show f.authority[id'.str]? = some ar from har]
    rfl
  | markReady inst bytes =>
    obtain ⟨r, hr, hid⟩ := h
    refine .inr ⟨inst, { r with ready := true, bytes }, ?_, rfl, hid⟩
    show (f.changeResidency inst fun r => { r with ready := true, bytes }).residency inst = _
    rw [residency_changeResidency, if_pos rfl, hr]
    rfl
  | _ => exact h.elim

theorem validated_congr {f' : Fabric} (h : f'.adapters = f.adapters) :
    f'.Validated id ↔ f.Validated id := by
  unfold Validated adapter
  rw [h]

theorem readyValid_registerAdapter {d : AdapterDescriptor} (h : f.ReadyValid) :
    (f.registerAdapter d).2.ReadyValid ↔
      (Registrable d → d.validation ≠ .valid → ¬ f.Readied d.id) := by
  rcases registerAdapter_cases f d with ⟨hnot, e, he⟩ | ⟨hd, he⟩
  · rw [he]
    exact ⟨fun _ hd => absurd hd hnot, fun _ => h⟩
  rw [he]
  have hget (id : AdapterId) : (f.adapters.insert d.id.str { d with
      generation := f.nextAdapterGen })[id.str]? =
        if d.id = id then some { d with generation := f.nextAdapterGen } else f.adapter id := by
    rw [Table.get_insert]
    exact if_congr Id.str_eq_iff rfl rfl
  constructor
  · intro hvalid _ hnot hready
    obtain ⟨d', hd', hval⟩ := hvalid d.id hready
    have hd' : (f.adapters.insert d.id.str _)[d.id.str]? = some d' := hd'
    rw [hget, if_pos rfl] at hd'
    cases hd'
    exact hnot hval
  · intro hkeep id hready
    have hready : f.Readied id := hready
    show ∃ d', (f.adapters.insert d.id.str _)[id.str]? = some d' ∧ _
    rw [hget]
    by_cases hid : d.id = id
    · rw [if_pos hid]
      subst hid
      refine ⟨_, rfl, ?_⟩
      by_contra hval
      exact hkeep hd hval hready
    · rw [if_neg hid]
      exact h id hready

theorem readyValid_apply_iff (hrec : op.isRecover = false) (h : f.ReadyValid) :
    (op.apply f).ReadyValid ↔ op.FindsValid f := by
  by_cases hreg : ∃ d, op = .registerAdapter d
  · obtain ⟨d, rfl⟩ := hreg
    refine (readyValid_registerAdapter h).trans ⟨fun hd => ⟨nofun, ?_⟩, fun hd => ?_⟩
    · intro d' hd'
      cases hd'
      exact hd
    · exact hd.registers d rfl
  have hadapters : (op.apply f).adapters = f.adapters := by
    by_cases hepoch : op = .advanceEpoch
    · rw [hepoch]
      rfl
    · exact (registry_frame (fun d hd => hreg ⟨d, hd⟩) hepoch hrec f).2.2
  constructor
  · intro hvalid
    refine ⟨fun id hready => ?_, fun d hd => absurd ⟨d, hd⟩ hreg⟩
    exact (validated_congr hadapters).mp (hvalid id (readied_of_readies hready))
  · intro hfinds id hready
    refine (validated_congr hadapters).mpr ?_
    rcases readied_cases hready with hbefore | hreadies
    · exact h id hbefore
    · exact hfinds.readies id hreadies

end Apply

theorem Fresh.readyValid {f : Fabric} (h : Fresh f) : f.ReadyValid := by
  rintro id (⟨ar, har, -⟩ | ⟨inst, r, hr, -⟩)
  · rw [authorityRecord, h.no_record] at har
    cases har
  · have hnone : f.residencies[inst.str]? = none := by
      cases h <;> exact Std.ExtTreeMap.getElem?_empty
    cases hnone.symm.trans hr

end Fabric

end AdapterFabric
