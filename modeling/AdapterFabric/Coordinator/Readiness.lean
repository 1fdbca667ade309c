import AdapterFabric.Coordinator.Resurrection

/-!
# AdapterFabric.Coordinator.Readiness

Whether a ready residency belongs to a worker that is still there.

* `noneReadied_exec`: only the section of an acknowledged load makes a residency ready.
* `ready_live_iff`: so a run keeps every ready residency on a live boot exactly when each of these
  sections finds the worker of its instance still connected under the boot of the residency.
-/

namespace AdapterFabric

namespace Coordinator

open Fabric (Op)

/-! ## What makes a residency ready -/

/-- Every ready residency of `f'` was one of `f`, on the same worker and boot. -/
def NoneReadied (f f' : Fabric) : Prop :=
  ∀ (k : Bytes) (r : ResidencyRecord), f'.residencies[k]? = some r → r.ready = true →
    ∃ r₀, f.residencies[k]? = some r₀ ∧ r₀.ready = true ∧ r₀.worker = r.worker ∧ r₀.boot = r.boot

/-- The operation writes `ready` through the pointer that `residency` returned. -/
def marks : Op → Bool
  | .markReady _ _ => true
  | _ => false

section NoneReadied

variable {f f' f'' : Fabric}

theorem NoneReadied.of_eq (h : f'.residencies = f.residencies) : NoneReadied f f' := by
  intro k r hr hready
  rw [h] at hr
  exact ⟨r, hr, hready, rfl, rfl⟩

theorem NoneReadied.trans (h : NoneReadied f f') (h' : NoneReadied f' f'') :
    NoneReadied f f'' := by
  intro k r hr hready
  obtain ⟨r₁, hr₁, hready₁, hw₁, hb₁⟩ := h' k r hr hready
  obtain ⟨r₀, hr₀, hready₀, hw₀, hb₀⟩ := h k r₁ hr₁ hready₁
  exact ⟨r₀, hr₀, hready₀, hw₀.trans hw₁, hb₀.trans hb₁⟩

/-- One residency is replaced, and is not ready unless it was. -/
theorem NoneReadied.of_insert {k : Bytes} {r : ResidencyRecord}
    (h : f'.residencies = f.residencies.insert k r)
    (hr : r.ready = true → ∃ r₀, f.residencies[k]? = some r₀ ∧ r₀.ready = true ∧
      r₀.worker = r.worker ∧ r₀.boot = r.boot) : NoneReadied f f' := by
  intro k' r' hr' hready
  rw [h] at hr'
  rcases Table.of_insert hr' with ⟨rfl, rfl⟩ | hr'
  · exact hr hready
  · exact ⟨r', hr', hready, rfl, rfl⟩

theorem noneReadied_evict (inst : AdapterInstanceId) : NoneReadied f (f.evict inst).2 := by
  unfold Fabric.evict
  cases f.residency inst with
  | none => exact .of_eq rfl
  | some rec =>
    dsimp only
    split
    · exact .of_eq rfl
    · split
      · exact .of_eq rfl
      · intro k r hr hready
        exact ⟨r, Table.of_erase hr, hready, rfl, rfl⟩

theorem noneReadied_pin (inst : AdapterInstanceId) : NoneReadied f (f.pin inst).2 := by
  unfold Fabric.pin
  cases hr : f.residency inst with
  | none => exact .of_eq rfl
  | some rec => exact .of_insert rfl fun hready => ⟨rec, hr, hready, rfl, rfl⟩

theorem noneReadied_unpin (inst : AdapterInstanceId) : NoneReadied f (f.unpin inst).2 := by
  unfold Fabric.unpin
  cases hr : f.residency inst with
  | none => exact .of_eq rfl
  | some rec => exact .of_insert rfl fun hready => ⟨rec, hr, hready, rfl, rfl⟩

theorem noneReadied_createInstance (adapter : AdapterId) (worker : WorkerId) (boot : WorkerBootId)
    (device : DeviceId) (bytes : UInt64) (rng : Rng) :
    NoneReadied f (f.createInstance adapter worker boot device bytes rng).2.1 := by
  unfold Fabric.createInstance
  cases f.adapter adapter with
  | none => exact .of_eq rfl
  | some d => exact .of_insert rfl fun hready => nomatch hready

theorem noneReadied_apply {op : Op} (hop : Section.IsControl op) (hmark : marks op = false) :
    NoneReadied f (op.apply f) := by
  cases op with
  | registerWorker rec => cases hop
  | onWorkerDown id => cases hop
  | onWorkerRestart id boot => cases hop
  | recover s => cases hop
  | markReady inst bytes => cases hmark
  | registerAdapter d =>
    obtain ⟨_, _, he⟩ := Fabric.registerAdapter_frame f d
    exact .of_eq (by simp only [Op.apply, he])
  | publishComposition ordered policy rng =>
    obtain ⟨_, _, he⟩ := Fabric.publishComposition_frame f ordered policy rng
    exact .of_eq (by simp only [Op.apply, he])
  | createInstance adapter worker boot device bytes rng =>
    exact noneReadied_createInstance adapter worker boot device bytes rng
  | bindAuthority id fence =>
    obtain ⟨_, _, _, he⟩ := Fabric.bindAuthority_frame f id fence
    exact .of_eq (by simp only [Op.apply, he])
  | evict inst => exact noneReadied_evict inst
  | pin inst => exact noneReadied_pin inst
  | unpin inst => exact noneReadied_unpin inst
  | invalidate id trigger reason => exact .of_eq rfl
  | advanceEpoch => exact .of_eq rfl
  | setLifecycle id state => exact .of_eq rfl
  | reserveCapacity loc bytes owner => exact .of_eq rfl
  | releaseCapacity loc bytes owner => exact .of_eq rfl

theorem noneReadied_run {ops : List Op}
    (hops : ∀ op ∈ ops, Section.IsControl op ∧ marks op = false) :
    NoneReadied f (Fabric.run ops f) :=
  Run.exec_preserves (P := NoneReadied f)
    (fun op ho _ h => h.trans (noneReadied_apply (hops op ho).1 (hops op ho).2)) (.of_eq rfl)

end NoneReadied

/-- The effect is the section of an acknowledged load. -/
def MarksReady : Effect → Prop
  | .locked (.markReady _ _) => True
  | _ => False

theorem section_marks {sec : Section} (s : Shared) (h : ¬ MarksReady (.locked sec)) :
    ∀ op ∈ sec.ops s, marks op = false := by
  cases sec with
  | markReady inst bytes => exact absurd trivial h
  | evict inst =>
    simp only [Section.ops]
    split <;> simp [marks]
  | pin text =>
    simp only [Section.ops]
    split <;> simp [marks]
  | unpin text =>
    simp only [Section.ops]
    split <;> simp [marks]
  | _ => simp [Section.ops, marks]

theorem ops_marks {e : Effect} (s : Shared) (h : ¬ MarksReady e) :
    ∀ op ∈ e.ops s, marks op = false := by
  cases e with
  | locked sec => exact section_marks s h
  | _ => nofun

theorem noneReadied_exec {s s' : Shared} {e : Effect} {r : e.Res} (he : exec s e r s')
    (h : ¬ MarksReady e) : NoneReadied s.fabric s'.fabric := by
  rw [exec_fabric he]
  exact noneReadied_run fun op ho => ⟨e.ops_isControl s op ho, ops_marks s h op ho⟩

theorem exec_workers {s s' : Shared} {e : Effect} {r : e.Res} (he : exec s e r s') :
    s'.fabric.workers = s.fabric.workers := by
  obtain ⟨ops, hops, hrun⟩ := exec_refines he
  rw [hrun]
  exact Run.exec_preserves (P := fun f : Fabric => f.workers = s.fabric.workers)
    (fun op ho g hg => (workers_frame (hops op ho) g).trans hg) rfl

/-! ## Ready residencies on live boots -/

/-- The worker of the residency is connected under its boot. -/
def OnLiveBoot (f : Fabric) (r : ResidencyRecord) : Prop :=
  ∃ w, f.worker r.worker = some w ∧ w.connected = true ∧ w.boot = r.boot

def ReadyLive (f : Fabric) : Prop :=
  ∀ (k : Bytes) (r : ResidencyRecord), f.residencies[k]? = some r → r.ready = true → OnLiveBoot f r

/-- An acknowledged load finds the worker of its instance still connected under its boot, or finds
no residency of the instance. -/
def MarksLive (c : Config) : Label → Prop
  | .effect _ (.locked (.markReady inst _)) _ =>
    ∀ r, c.shared.fabric.residency inst = some r → OnLiveBoot c.shared.fabric r
  | _ => True

section ReadyLive

variable {f f' : Fabric}

theorem ReadyLive.of_noneReadied (h : ReadyLive f) (hnone : NoneReadied f f')
    (hworkers : f'.workers = f.workers) : ReadyLive f' := by
  intro k r hr hready
  obtain ⟨r₀, hr₀, hready₀, hworker, hboot⟩ := hnone k r hr hready
  obtain ⟨w, hw, hconnected, hlive⟩ := h k r₀ hr₀ hready₀
  refine ⟨w, ?_, hconnected, hlive.trans hboot⟩
  rw [Fabric.worker, hworkers, ← hworker]
  exact hw

theorem markReady_readyLive (inst : AdapterInstanceId) (bytes : UInt64) (h : ReadyLive f) :
    ReadyLive (f.markReady inst bytes) ↔ ∀ r, f.residency inst = some r → OnLiveBoot f r := by
  have hget (k : Bytes) : (f.markReady inst bytes).residencies[k]? =
      if inst.str = k then f.residencies[k]?.map fun r => { r with ready := true, bytes }
      else f.residencies[k]? := Table.get_modify _ _ _ _
  constructor
  · intro hlive r hr
    refine hlive inst.str { r with ready := true, bytes } ?_ rfl
    rw [hget, if_pos rfl, show f.residencies[inst.str]? = some r from hr]
    rfl
  · intro hmark k r hr hready
    rw [hget] at hr
    by_cases hk : inst.str = k
    · rw [if_pos hk] at hr
      obtain ⟨r₀, hr₀, rfl⟩ := Option.map_eq_some_iff.mp hr
      exact hmark r₀ (by rw [Fabric.residency, hk]; exact hr₀)
    · rw [if_neg hk] at hr
      exact h k r hr hready

theorem ready_wkRegister (msg : Message) (h : ReadyLive f) : ReadyLive (wkRegister f msg) := by
  rcases wkRegister_cases f msg with he | ⟨rec, _, _, hconnected, he⟩
  · rwa [he]
  rw [he]
  intro k r hr hready
  have hr : (f.residencies.map fun _ r =>
      if r.worker = rec.id ∧ r.boot ≠ rec.boot then { r with ready := false, migration := .none }
      else r)[k]? = some r := hr
  rw [Std.ExtTreeMap.getElem?_map] at hr
  obtain ⟨r₀, hr₀, he₀⟩ := Option.map_eq_some_iff.mp hr
  by_cases hlost : r₀.worker = rec.id ∧ r₀.boot ≠ rec.boot
  · rw [if_pos hlost] at he₀
    rw [← he₀] at hready
    cases hready
  rw [if_neg hlost] at he₀
  subst he₀
  show ∃ w, (f.workers.insert rec.id.str rec)[r₀.worker.str]? = some w ∧ _
  rw [Table.get_insert]
  by_cases hw : rec.id = r₀.worker
  · -- a ready residency of this worker carries the boot it registers with
    have hboot : r₀.boot = rec.boot := by simpa [hw] using hlost
    rw [if_pos (by rw [hw])]
    exact ⟨rec, rfl, hconnected, hboot.symm⟩
  · rw [if_neg fun hkey => hw (Id.str_inj hkey)]
    exact h k r₀ hr₀ hready

theorem ready_onWorkerDown (id : WorkerId) (h : ReadyLive f) : ReadyLive (f.onWorkerDown id) := by
  intro k r hr hready
  have hr : (f.residencies.map fun _ r => if r.worker = id then { r with ready := false } else r)[
    k]? = some r := hr
  rw [Std.ExtTreeMap.getElem?_map] at hr
  obtain ⟨r₀, hr₀, he₀⟩ := Option.map_eq_some_iff.mp hr
  by_cases hlost : r₀.worker = id
  · rw [if_pos hlost] at he₀
    rw [← he₀] at hready
    cases hready
  rw [if_neg hlost] at he₀
  subst he₀
  unfold OnLiveBoot
  rw [worker_onWorkerDown, if_neg (Ne.symm hlost)]
  exact h k r₀ hr₀ hready

end ReadyLive

theorem readyLive_step {c c' : Config} {l : Label} (hstep : Step c l c')
    (h : ReadyLive c.shared.fabric) : ReadyLive c'.shared.fabric ↔ MarksLive c l := by
  rcases Interleave.Step.shared_cases hstep with ⟨_, _, rfl, he⟩ | ⟨_, e, r, rfl, he⟩ | ⟨v, rfl, he⟩
  · rw [he]
    exact ⟨fun _ => trivial, fun _ => h⟩
  · by_cases hmark : MarksReady e
    · cases e with
      | locked sec =>
        cases sec with
        | markReady inst bytes =>
          have hfabric : ((Section.markReady inst bytes).run c.shared).2 = c'.shared :=
            congrArg Prod.snd he
          rw [← hfabric]
          exact markReady_readyLive inst bytes h
        | _ => cases hmark
      | _ => cases hmark
    · have hlive : ReadyLive c'.shared.fabric :=
        h.of_noneReadied (noneReadied_exec he hmark) (exec_workers he)
      refine ⟨fun _ => ?_, fun _ => hlive⟩
      cases e with
      | locked sec =>
        cases sec with
        | markReady inst bytes => exact absurd trivial hmark
        | _ => trivial
      | _ => trivial
  · refine ⟨fun _ => trivial, fun _ => ?_⟩
    cases v with
    | register msg =>
      rw [show c'.shared.fabric = _ from congrArg Shared.fabric he]
      exact ready_wkRegister msg h
    | down id =>
      rw [show c'.shared.fabric = _ from congrArg Shared.fabric he]
      exact ready_onWorkerDown id h

theorem Initial.readyLive {c : Config} (h : Initial c) : ReadyLive c.shared.fabric := by
  obtain ⟨limits, rng, rfl⟩ := h
  intro k r hr
  have hr : (∅ : StrMap ResidencyRecord)[k]? = some r := hr
  rw [Std.ExtTreeMap.getElem?_empty] at hr
  cases hr

/-- Every state of a run has its ready residencies on live boots exactly when every load that is
acknowledged in it finds the worker of the instance so. -/
theorem ready_live_iff {c₀ : Config} {path : List (Label × Config)} (h₀ : Initial c₀)
    (h : Run.Each Step c₀ path) :
    (∀ x ∈ path, ReadyLive x.2.shared.fabric) ↔ Run.Each (fun c l _ => MarksLive c l) c₀ path :=
  h.always_iff (I := fun _ => True) (P := fun c => ReadyLive c.shared.fabric)
    (fun _ _ => trivial) (fun hstep _ hP => readyLive_step hstep hP) trivial h₀.readyLive

/-! ### A load that is acknowledged in time -/

open Fabric (sampleWorker)

instance (f : Fabric) (r : ResidencyRecord) : Decidable (OnLiveBoot f r) :=
  inferInstanceAs (Decidable (∃ w ∈ f.worker r.worker, w.connected = true ∧ w.boot = r.boot))

def findsLive (s : Shared) : Effect → Bool
  | .locked (.markReady inst _) =>
    decide (∀ r ∈ s.fabric.residency inst, OnLiveBoot s.fabric r)
  | _ => true

theorem marksLive_of_allows {c : Config} {l : Label} (h : Allows findsLive c l) :
    MarksLive c l := by
  cases l with
  | effect i e r =>
    cases e with
    | locked sec =>
      cases sec with
      | markReady inst bytes =>
        have hlive : decide (∀ r ∈ c.shared.fabric.residency inst, OnLiveBoot c.shared.fabric r) =
            true := h
        have hfinds := of_decide_eq_true hlive
        exact hfinds
      | _ => trivial
    | _ => trivial
  | _ => trivial

/-- After the adapter and the worker are registered. -/
def registeredState : Shared :=
  let s : Shared := { fabric := .ofLimits ∅, rng := .instanceInit }
  let s := (serve sampleAck 1 adapterRequest s).2
  { s with fabric := wkRegister s.fabric workerRegistration }

theorem reaches_registered : Reaches registeredState 1 :=
  ((Reaches.start ∅ .instanceInit).request sampleAck 1 adapterRequest).event
    (v := .register workerRegistration) rfl

/-- The instance that the first load creates. -/
def sampleInstance : AdapterInstanceId := (Id.generate .instanceInit).1

theorem ready_live_iff_sample :
    ∃ c₀ path l c, Initial c₀ ∧ Run.Each Step c₀ path ∧ (l, c) ∈ path ∧
      (c.shared.fabric.residency sampleInstance).map (·.ready) = some true ∧
      ReadyLive c.shared.fabric := by
  have hregistered : ReachesBy findsLive registeredState 1 :=
    ((ReachesBy.start ∅ .instanceInit).request sampleAck 1 adapterRequest
      (by decide +kernel)).event (v := .register workerRegistration) rfl
  obtain ⟨c₀, path, l, c, h₀, hpath, hallows, hmem, hshared⟩ :=
    hregistered.request_path sampleAck 6 loadRequest (by decide +kernel)
  refine ⟨c₀, path, l, c, h₀, hpath, hmem, ?_, ?_⟩
  · rw [hshared]
    decide +kernel
  · exact (ready_live_iff h₀ hpath).mpr (hallows.imp fun _ _ _ h => marksLive_of_allows h) _ hmem

/-! ### A load whose worker disconnects after the acknowledgement -/

/-- The worker disconnects when its acknowledgement has been read, and the load goes on. -/
def disconnectedState : Shared :=
  let waiting := serve sampleAck 4 loadRequest registeredState
  (waiting.1.solo (answer sampleAck) 2
    { waiting.2 with fabric := waiting.2.fabric.onWorkerDown sampleWorker.id }).2

theorem reaches_disconnected : Reaches disconnectedState 2 :=
  reaches_registered.interrupted sampleAck 4 2 loadRequest (v := .down sampleWorker.id) rfl

theorem ready_live_counterexample :
    ∃ c₀ ls c, Initial c₀ ∧ Steps c₀ ls c ∧ ¬ ReadyLive c.shared.fabric := by
  obtain ⟨c₀, ls, c, h₀, hrun, hshared, _⟩ := reaches_disconnected
  refine ⟨c₀, ls, c, h₀, hrun, fun hlive => ?_⟩
  rw [hshared] at hlive
  have hready : (disconnectedState.fabric.residency sampleInstance).map
      (fun r => (r.ready, r.worker)) = some (true, sampleWorker.id) := by decide +kernel
  have hdown : (disconnectedState.fabric.worker sampleWorker.id).map (·.connected) =
      some false := by decide +kernel
  obtain ⟨r, hr, he⟩ := Option.map_eq_some_iff.mp hready
  obtain ⟨hr', hw'⟩ := Prod.mk.inj he
  obtain ⟨w, hw, hconnected, _⟩ := hlive _ r hr hr'
  rw [hw'] at hw
  rw [hw, Option.map_some, hconnected] at hdown
  cases hdown

end Coordinator

end AdapterFabric
