import AdapterFabric.Coordinator.Refusal
import AdapterFabric.Fabric.Conflict

/-!
# AdapterFabric.Coordinator.Release

What an acknowledged deactivation releases.

* `activate_refused_iff`: an acknowledged activation is refused for an authority conflict exactly
  when the bind of its fence conflicts.
* `deactivate_releases_iff`: a deactivation that is answered ok leaves nothing held exactly when
  nothing was held before, since all it writes is the lifecycle of the adapter.
-/

namespace AdapterFabric

namespace Coordinator

open Ctl (eval)
open Fabric (sampleAdapter sampleFence)

/-- The answer to a request that threw an authority conflict. -/
def RefusedForConflict (answer : Message) : Prop :=
  ∃ message, answer = Ctl.answerOf (.error ⟨.authorityConflict, message⟩)

/-- The adapter has no authority, does not hold the slot, and keeps no other adapter from being
activated. -/
structure Released (s : Shared) (a : AdapterId) : Prop where
  record : ∀ ar, s.fabric.authorityRecord a = some ar → ar.active = false ∧ ar.hasAuthority = false
  slot : ∀ held, s.fabric.activeFence = some held → held.adapter ≠ a
  others : ∀ ack req F, ack.ok = true → req.type = .ctlActivate →
    decodeFence req.payload = .ok F → F.adapter ≠ a → s.fabric.Bindable F →
      ¬ RefusedForConflict (served ack req s).1

/-- The adapter has no authority, and the slot is free, or held by the only adapter besides it that
could be activated. -/
structure Idle (f : Fabric) (a : AdapterId) : Prop where
  record : ∀ ar, f.authorityRecord a = some ar → ar.active = false ∧ ar.hasAuthority = false
  slot : ∀ held, f.activeFence = some held →
    held.adapter ≠ a ∧ ∀ F, F.adapter ≠ a → f.Bindable F → F.adapter = held.adapter

section Activate

variable {ack req : Message} {s : Shared} {F : AuthorityFence}

theorem eval_activate (hack : ack.ok = true) (hF : decodeFence req.payload = .ok F)
    (hauth : (s.fabric.checkFence F).authorized = true) :
    (eval ack (Ctl.activate req) s).1 = match (s.fabric.bindAuthority F.adapter F).1 with
      | .ok check => .ok { Ctl.out with ok := check.authorized, text := check.reason }
      | .error e => .error e := by
  have hpre : ((Section.precheck F).run s).1.authorized = true := hauth
  unfold Ctl.activate
  rw [Ctl.eval_orThrow_ok hF, Ctl.eval_locked_bind, if_neg (not_not.mpr hpre),
    Ctl.eval_forward_bind, if_pos hack, Ctl.eval_locked_bind]
  cases hbind : (s.fabric.bindAuthority F.adapter F).1 with
  | ok check => exact congrArg Prod.fst (Ctl.eval_orThrow_ok hbind)
  | error e => exact congrArg Prod.fst (Ctl.eval_orThrow_error hbind)

theorem activate_refused_iff (hack : ack.ok = true) (htype : req.type = .ctlActivate)
    (hF : decodeFence req.payload = .ok F) (hbind : s.fabric.Bindable F) :
    RefusedForConflict (served ack req s).1 ↔ s.fabric.Conflicts F := by
  rw [served_eq, Ctl.dispatch_activate htype, eval_activate hack hF hbind.authorized]
  constructor
  · rintro ⟨message, h⟩
    by_contra hfree
    obtain ⟨check, hok, hauth⟩ := Fabric.binds_of_not_conflicts hbind hfree
    rw [hok] at h
    have hcheck : check.authorized = false := congrArg Message.ok h
    cases hauth.symm.trans hcheck
  · rintro ⟨message, hconflict⟩
    rw [hconflict]
    exact ⟨message, rfl⟩

end Activate

/-! ## Setting the lifecycle -/

section Lifecycle

variable {f : Fabric} {id : AdapterId} {state : LifecycleState}

theorem authorityRecord_setLifecycle (k : AdapterId) :
    (f.setLifecycle id state).authorityRecord k =
      if id = k then (f.authorityRecord k).map fun ar => { ar with lifecycle := state }
      else f.authorityRecord k := by
  show (f.authority.modify id.str _)[k.str]? = _
  rw [Table.get_modify]
  exact if_congr Id.str_eq_iff rfl rfl

theorem setLifecycle_fences (k : AdapterId) :
    ((f.setLifecycle id state).authorityRecord k).map (·.fence) =
      (f.authorityRecord k).map (·.fence) := by
  rw [authorityRecord_setLifecycle]
  split
  · rw [Option.map_map]
    rfl
  · rfl

theorem bindable_setLifecycle {F : AuthorityFence} :
    (f.setLifecycle id state).Bindable F ↔ f.Bindable F := by
  have hrecord : ((f.setLifecycle id state).authorityRecord F.adapter).isSome =
      (f.authorityRecord F.adapter).isSome := by
    rw [authorityRecord_setLifecycle]
    split
    · rw [Option.isSome_map]
    · rfl
  constructor
  · rintro ⟨hauth, hrec⟩
    obtain ⟨d, w, hc⟩ := Fabric.checkFence_authorized.mp hauth
    refine ⟨Fabric.checkFence_authorized.mpr ⟨d, w, hc.congr rfl rfl hc.worker hc.connected hc.boot
      (fun _ ha => ha) (setLifecycle_fences F.adapter).symm⟩, hrecord ▸ hrec⟩
  · rintro ⟨hauth, hrec⟩
    obtain ⟨d, w, hc⟩ := Fabric.checkFence_authorized.mp hauth
    exact ⟨Fabric.checkFence_authorized.mpr ⟨d, w, hc.congr rfl rfl hc.worker hc.connected hc.boot
      (fun _ ha => ha) (setLifecycle_fences F.adapter)⟩, hrecord.symm ▸ hrec⟩

end Lifecycle

/-! ## Deactivation -/

def acknowledged : Message := { ok := true }

/-- The request to activate `F`. -/
def activation (F : AuthorityFence) : Message :=
  { type := .ctlActivate, payload := encodeFence F }

theorem released_iff {s : Shared} {a : AdapterId} : Released s a ↔ Idle s.fabric a := by
  have hconflict (F : AuthorityFence) (hF : s.fabric.Bindable F) :
      ¬ s.fabric.Conflicts F ↔ ∀ held, s.fabric.activeFence = some held →
        F.adapter = held.adapter := by
    rw [Fabric.conflicts_iff_slot hF]
    constructor
    · intro hfree held hheld
      by_contra hne
      exact hfree ⟨held, hheld, fun h => hne h.symm⟩
    · rintro h ⟨held, hheld, hne⟩
      exact hne (h held hheld).symm
  constructor
  · intro h
    refine ⟨h.record, fun held hheld => ⟨h.slot held hheld, fun F hF hbind => ?_⟩⟩
    -- otherwise the activation of `F` would be refused
    have hfence : decodeFence (activation F).payload = .ok F := decodeFence_encodeFence F
    have hfree := h.others acknowledged (activation F) F rfl rfl hfence hF hbind
    have hrefused : RefusedForConflict (served acknowledged (activation F) s).1 ↔
        s.fabric.Conflicts F := activate_refused_iff rfl rfl hfence hbind
    rw [hrefused, hconflict F hbind] at hfree
    exact hfree held hheld
  · intro h
    refine ⟨h.record, fun held hheld => (h.slot held hheld).1, ?_⟩
    intro ack req F hack htype hF hne hbind
    rw [activate_refused_iff hack htype hF hbind, hconflict F hbind]
    exact fun held hheld => (h.slot held hheld).2 F hne hbind

theorem idle_setLifecycle {f : Fabric} {a : AdapterId} {state : LifecycleState} :
    Idle (f.setLifecycle a state) a ↔ Idle f a := by
  have hrecord : (∀ ar, (f.setLifecycle a state).authorityRecord a = some ar →
      ar.active = false ∧ ar.hasAuthority = false) ↔
      ∀ ar, f.authorityRecord a = some ar → ar.active = false ∧ ar.hasAuthority = false := by
    rw [authorityRecord_setLifecycle, if_pos rfl]
    cases f.authorityRecord a with
    | none => simp
    | some ar => simp
  constructor
  · rintro ⟨hrec, hslot⟩
    exact ⟨hrecord.mp hrec, fun held hheld => ⟨(hslot held hheld).1, fun F hF hbind =>
      (hslot held hheld).2 F hF (bindable_setLifecycle.mpr hbind)⟩⟩
  · rintro ⟨hrec, hslot⟩
    exact ⟨hrecord.mpr hrec, fun held hheld => ⟨(hslot held hheld).1, fun F hF hbind =>
      (hslot held hheld).2 F hF (bindable_setLifecycle.mp hbind)⟩⟩

/-- A deactivation is answered ok when the worker acknowledges it, and leaves its adapter released
exactly when it was idle before. -/
theorem deactivate_releases_iff {ack req : Message} {s : Shared} {a : AdapterId}
    (htype : req.type = .ctlDeactivate) (hid : mustParse req.text = .ok a) :
    (served ack req s).1.ok = ack.ok ∧
      (Released (served ack req s).2 a ↔ Idle s.fabric a) := by
  obtain ⟨⟨out, hout, hok⟩, hfabric⟩ := Ctl.eval_deactivate ack s hid
  rw [← Ctl.dispatch_deactivate htype] at hout hfabric
  rw [served_eq, released_iff, hfabric, idle_setLifecycle, hout]
  exact ⟨hok, Iff.rfl⟩

/-! ### Deactivating the sample adapter -/

theorem deactivate_releases_iff_sample :
    Released (served sampleAck deactivateRequest loadedState).2 sampleAdapter.id := by
  refine ((deactivate_releases_iff rfl (by decide +kernel)).2).mpr ⟨fun ar har => ?_, ?_⟩
  · have hidle : (loadedState.fabric.authorityRecord sampleAdapter.id).map
        (fun ar => (ar.active, ar.hasAuthority)) = some (false, false) := by decide +kernel
    rw [har] at hidle
    exact Prod.mk.inj (Option.some.inj hidle)
  · intro held hheld
    have hfree : loadedState.fabric.activeFence = none := by decide +kernel
    cases hfree.symm.trans hheld

/-- The active adapter is deactivated, and is as active as before. -/
theorem deactivate_releases_counterexample :
    ∃ s m ack req a, Reaches s m ∧ req.type = .ctlDeactivate ∧ mustParse req.text = .ok a ∧
      (served ack req s).1.ok = true ∧ ¬ Released (served ack req s).2 a := by
  refine ⟨activeState, 3, sampleAck, deactivateRequest, sampleAdapter.id, reaches_active, rfl,
    by decide +kernel, by decide +kernel, fun h => ?_⟩
  obtain ⟨ar, har, ha, _⟩ := Fabric.holds_of_lookup
    (f := (served sampleAck deactivateRequest activeState).2.fabric)
    (k := sampleAdapter.id.str) (F := sampleFence) (by decide +kernel)
  have hinactive := (h.record ar har).1
  cases ha.symm.trans hinactive

end Coordinator

end AdapterFabric
