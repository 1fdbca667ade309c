import AdapterFabric.Coordinator.Control
import AdapterFabric.Fabric.Exclusive

/-!
# AdapterFabric.Coordinator.LiveWorker

Authority is held on a connected worker under its current boot, in every interleaving.

* `live_apply`: control operations leave the workers alone and bind only fences of live workers.
* `live_wkRegister`, `live_onWorkerDown`: whoever loses its worker's boot or connection is revoked
  in the same section.
* `active_on_live_worker`: every reachable state is `Live`.
-/

namespace AdapterFabric

namespace Coordinator

open Fabric (Op)

/-- Every active fence names a worker that is connected under the boot of the fence. -/
def Live (f : Fabric) : Prop :=
  ∀ (k : Bytes) (ar : AdapterAuthorityRecord), f.authority[k]? = some ar → ar.active = true →
    ∃ w, f.worker ar.fence.worker = some w ∧ w.connected = true ∧ w.boot = ar.fence.boot

theorem workers_frame {op : Op} (hop : Section.IsControl op) (f : Fabric) :
    (op.apply f).workers = f.workers := by
  refine Fabric.workers_frame ?_ ?_ hop.keyed.2 f
  · rintro rec rfl
    exact hop
  · rintro id rfl
    exact hop

section Preserve

variable {f : Fabric}

theorem live_apply {op : Op} (hop : Section.IsControl op) (h : Live f) : Live (op.apply f) := by
  intro k ar har ha
  unfold Fabric.worker
  rw [workers_frame hop]
  rcases Fabric.active_step hop.keyed.1 har ha with hg | hs
  · -- a fence is only bound when it is current
    obtain ⟨d, w, hc⟩ := Fabric.checkFence_authorized.mp hg.authorized
    exact ⟨w, hc.worker, hc.connected, hc.boot.symm⟩
  · obtain ⟨ar₀, h₀, ha₀, _, hF⟩ := hs.before
    rw [← hF]
    exact h k ar₀ h₀ ha₀

theorem live_run {ops : List Op} (hops : ∀ op ∈ ops, Section.IsControl op) (h : Live f) :
    Live (Fabric.run ops f) :=
  Run.exec_preserves (P := Live) (fun op ho _ => live_apply (hops op ho)) h

theorem live_wkRegister (msg : Message) (h : Live f) : Live (wkRegister f msg) := by
  rcases wkRegister_cases f msg with he | ⟨rec, _, _, hconnected, he⟩
  · rwa [he]
  rw [he]
  intro k ar har ha
  have har : ((f.registerWorker rec).revokeWhere fun fence =>
      fence.worker = rec.id ∧ fence.boot ≠ rec.boot).authority[k]? = some ar := har
  obtain ⟨h₀, hkept⟩ := Fabric.active_of_revokeWhere har ha
  show ∃ w, (f.workers.insert rec.id.str rec)[ar.fence.worker.str]? = some w ∧ _
  rw [Table.get_insert]
  by_cases hw : ar.fence.worker = rec.id
  · -- a fence of this worker that survives carries the boot it registers with
    have hboot : ar.fence.boot = rec.boot := by simpa [hw] using hkept
    rw [if_pos (by rw [hw])]
    exact ⟨rec, rfl, hconnected, hboot.symm⟩
  · rw [if_neg fun hkey => hw (Id.str_inj hkey).symm]
    exact h k ar h₀ ha

theorem live_onWorkerDown (id : WorkerId) (h : Live f) : Live (f.onWorkerDown id) := by
  intro k ar har ha
  have har : (f.revokeWhere fun fence => fence.worker = id).authority[k]? = some ar := har
  obtain ⟨h₀, hkept⟩ := Fabric.active_of_revokeWhere har ha
  have hw : ar.fence.worker ≠ id := by simpa using hkept
  show ∃ w, (f.workers.modify id.str fun w => { w with connected := false })[ar.fence.worker.str]? =
    some w ∧ _
  rw [Table.get_modify, if_neg fun hkey => hw (Id.str_inj hkey).symm]
  exact h k ar h₀ ha

end Preserve

theorem Initial.live {c : Config} (h : Initial c) : Live c.shared.fabric := by
  intro k ar har
  rw [h.fresh.no_record] at har
  cases har

theorem live_exec {s s' : Shared} {e : Effect} {r : e.Res} (he : exec s e r s')
    (h : Live s.fabric) : Live s'.fabric := by
  obtain ⟨ops, hops, hrun⟩ := exec_refines he
  rw [hrun]
  exact live_run hops h

theorem live_env {s s' : Shared} {v : WorkerEvent} (he : env s v s') (h : Live s.fabric) :
    Live s'.fabric := by
  cases v with
  | register msg =>
    cases he
    exact live_wkRegister msg h
  | down id =>
    cases he
    exact live_onWorkerDown id h

/-- Whatever the interleaving, every active fence names a worker that is connected under the boot of
the fence. -/
theorem active_on_live_worker {c₀ c : Config} {ls : List Label} (h₀ : Initial c₀)
    (h : Steps c₀ ls c) (k : Bytes) (ar : AdapterAuthorityRecord)
    (har : c.shared.fabric.authority[k]? = some ar) (ha : ar.active = true) :
    ∃ w, c.shared.fabric.worker ar.fence.worker = some w ∧ w.connected = true ∧
      w.boot = ar.fence.boot :=
  Interleave.invariant (I := fun s => Live s.fabric) live_exec live_env h h₀.live k ar har ha

/-! ### A run that activates one adapter -/

open Fabric (sampleAdapter sampleWorker sampleFence)

def sampleAck : Message := { type := .wkLoadAck, ok := true, a := 1 }

def adapterRequest : Message :=
  { type := .ctlRegisterAdapter
    payload := serializeAdapter { sampleAdapter with generation := ⟨1⟩ } }

def workerRegistration : Message :=
  { type := .wkRegister, text := sampleWorker.id.str, text2 := sampleWorker.boot.str }

def loadRequest : Message :=
  { type := .ctlLoad, text2 := sampleWorker.id.str, payload := encodeFence sampleFence }

def activateRequest : Message :=
  { type := .ctlActivate, text2 := sampleWorker.id.str, payload := encodeFence sampleFence }

def deactivateRequest : Message :=
  { type := .ctlDeactivate, text := sampleAdapter.id.str, text2 := sampleWorker.id.str }

/-- After the adapter and the worker are registered and the adapter is loaded. -/
def loadedState : Shared :=
  let s : Shared := { fabric := .ofLimits ∅, rng := .instanceInit }
  let s := (serve sampleAck 1 adapterRequest s).2
  let s := { s with fabric := wkRegister s.fabric workerRegistration }
  (serve sampleAck 6 loadRequest s).2

theorem reaches_loaded : Reaches loadedState 2 :=
  (((Reaches.start ∅ .instanceInit).request sampleAck 1 adapterRequest).event
    (v := .register workerRegistration) rfl).request sampleAck 6 loadRequest

def activeState : Shared := (serve sampleAck 4 activateRequest loadedState).2

theorem reaches_active : Reaches activeState 3 :=
  reaches_loaded.request sampleAck 4 activateRequest

theorem active_on_live_worker_sample :
    ∃ w, activeState.fabric.worker sampleFence.worker = some w ∧ w.connected = true ∧
      w.boot = sampleFence.boot := by
  obtain ⟨c₀, ls, c, h₀, h, hshared, _⟩ := reaches_active
  obtain ⟨ar, har, ha, hF⟩ := Fabric.holds_of_lookup (f := activeState.fabric)
    (k := sampleAdapter.id.str) (F := sampleFence) (by decide +kernel)
  have hlive := active_on_live_worker h₀ h sampleAdapter.id.str ar (by rw [hshared]; exact har) ha
  rwa [hshared, hF] at hlive

end Coordinator

end AdapterFabric
