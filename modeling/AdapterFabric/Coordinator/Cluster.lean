import AdapterFabric.Coordinator.Ledger
import AdapterFabric.Coordinator.Refusal
import AdapterFabric.Coordinator.Worker

/-!
# AdapterFabric.Coordinator.Cluster

A coordinator and the worker services attached to it, while no connection ends and one control
request is answered before the next one comes.

* `reaches_run`: what they do is one of the interleavings.
* `request_load`, `request_evict`, `request_invalidate`: what a request does on both sides.
-/

namespace AdapterFabric

namespace Coordinator

open Interleave
open Ctl (nextInstance newResidency created)

structure Cluster where
  shared : Shared
  /-- the services behind the slots of `workers_` -/
  workers : StrMap WorkerService := ∅

namespace Cluster

/-! ## Steps -/

def withFabric (s : Cluster) (f : Fabric) : Cluster :=
  { s with shared := { s.shared with fabric := f } }

def withWorker (s : Cluster) (workerId : Bytes) (w : WorkerService) : Cluster :=
  { s with workers := s.workers.insert workerId w }

/-- A worker service connects and registers. -/
def attach (s : Cluster) (opts : WorkerOptions) : Cluster :=
  let w := WorkerService.ofOptions opts
  (s.withFabric (wkRegister s.shared.fabric w.registration)).withWorker w.registration.text w

/-- `forward_to_worker`: the service under `workerId` gets the command and replies. -/
def forward (s : Cluster) (workerId : Bytes) (cmd : Message) : Message × Cluster :=
  match s.workers[workerId]? with
  | none => (unknownWorker, s)
  | some w =>
    -- without a reply the call ends when the connection does
    ((w.handleCommand cmd).2.getD workerDisconnected, s.withWorker workerId (w.handleCommand cmd).1)

def answer (s : Cluster) : (e : Effect) → e.Res × Cluster
  | .locked sec => ((sec.run s.shared).1, { s with shared := (sec.run s.shared).2 })
  | .nextReq =>
    (s.shared.nextReq, { s with shared := { s.shared with nextReq := s.shared.nextReq + 1 } })
  | .forward reqId workerId fwd => s.forward workerId { fwd with reqId }
  | .shutdown => ((), { s with shared := { s.shared with shutdown := true } })

/-- A control request: its answer and the state it leaves. -/
def request (s : Cluster) (req : Message) : Message × Cluster := (processControl req).eval answer s

inductive Action where
  | attach (opts : WorkerOptions)
  | request (req : Message)

def apply (s : Cluster) : Action → Cluster
  | .attach opts => s.attach opts
  | .request req => (s.request req).2

/-- A coordinator that has just been constructed. -/
def Initial (s : Cluster) : Prop :=
  ∃ limits rng, s = { shared := { fabric := .ofLimits limits, rng } }

/-! ## One of the interleavings -/

section Reaches

variable {s : Cluster} {m : ℕ}

theorem forward_shared (s : Cluster) (workerId : Bytes) (cmd : Message) :
    (s.forward workerId cmd).2.shared = s.shared := by
  unfold forward
  cases s.workers[workerId]? with
  | none => rfl
  | some w => rfl

theorem exec_answer (s : Cluster) (e : Effect) :
    exec s.shared e (s.answer e).1 (s.answer e).2.shared := by
  cases e with
  | locked sec => rfl
  | nextReq => exact ⟨rfl, rfl⟩
  | forward reqId workerId fwd => exact s.forward_shared workerId { fwd with reqId }
  | shutdown => rfl

theorem Initial.reaches (h : Initial s) : Reaches s.shared 0 := by
  obtain ⟨limits, rng, rfl⟩ := h
  exact .start limits rng

theorem reaches_attach (h : Reaches s.shared m) (opts : WorkerOptions) :
    Reaches (s.attach opts).shared m :=
  h.event (v := .register (WorkerService.ofOptions opts).registration) rfl

theorem reaches_request (h : Reaches s.shared m) (req : Message) :
    Reaches (s.request req).2.shared (m + 1) := by
  obtain ⟨n, hn⟩ := Prog.solo_eval answer (processControl req) s
  obtain ⟨c₀, ls, c, h₀, hrun, hshared, _, hfree⟩ := Reaches.request_by shared exec_answer h n req
  rw [hn] at hshared
  exact ⟨c₀, ls, c, h₀, hrun, hshared, hfree⟩

/-- Whatever the workers and the requests do, one after another, is one of the interleavings. -/
theorem reaches_run (h₀ : Initial s) (as : List Action) :
    ∃ m, Reaches (Run.exec (fun a s => apply s a) as s).shared m := by
  refine Run.exec_preserves (P := fun s : Cluster => ∃ m, Reaches s.shared m) ?_ ⟨0, h₀.reaches⟩
  rintro a - s ⟨m, h⟩
  cases a with
  | attach opts => exact ⟨m, reaches_attach h opts⟩
  | request req => exact ⟨m + 1, reaches_request h req⟩

end Reaches

/-! ## The handlers -/

theorem withWorker_self {s : Cluster} {workerId : Bytes} {w : WorkerService}
    (h : s.workers[workerId]? = some w) : s.withWorker workerId w = s := by
  unfold withWorker
  rw [Table.insert_eq_self.mpr h]

/-- One more request id is given out. -/
def numbered (s : Cluster) : Cluster :=
  { s with shared := { s.shared with nextReq := s.shared.nextReq + 1 } }

/-- A command goes out under the next request id. -/
def send (s : Cluster) (workerId : Bytes) (fwd : Message) : Message × Cluster :=
  s.numbered.forward workerId { fwd with reqId := s.shared.nextReq }

section Eval

variable {β : Type} {s : Cluster}

theorem eval_locked_bind {sec : Section} {k : sec.Res → Ctl β} :
    Ctl.evalBy answer (Ctl.locked sec >>= k) s =
      Ctl.evalBy answer (k (sec.run s.shared).1) { s with shared := (sec.run s.shared).2 } :=
  Ctl.evalBy_locked_bind

theorem eval_forward_bind {workerId : Bytes} {fwd : Message} {k : Message → Ctl β} :
    Ctl.evalBy answer (Ctl.forwardToWorker workerId fwd >>= k) s =
      Ctl.evalBy answer (k (s.send workerId fwd).1) (s.send workerId fwd).2 :=
  Ctl.evalBy_forward_bind

theorem request_eq (req : Message) :
    s.request req =
      (Ctl.answerOf (Ctl.evalBy answer (Ctl.dispatch req) s).1,
        (Ctl.evalBy answer (Ctl.dispatch req) s).2) :=
  eval_processControl answer req s

end Eval

/-- The service under `workerId`, if there is one, no longer holds the adapter. -/
def dropped (s : Cluster) (workerId : Bytes) (id : AdapterId) : Cluster :=
  { s with workers := s.workers.modify workerId fun w =>
      { w with localResidency := w.localResidency.erase id.str } }

theorem mem_workers {s : Cluster} {k : Bytes} {w : WorkerService} (h : s.workers[k]? = some w) :
    k ∈ s.workers := by
  rw [Std.ExtTreeMap.mem_iff_isSome_getElem?, h]
  rfl

section Send

variable {s : Cluster} {workerId : Bytes} {fwd : Message} {w : WorkerService}

theorem send_detached (h : s.workers[workerId]? = none) :
    s.send workerId fwd = (unknownWorker, s.numbered) := by
  have h' : s.numbered.workers[workerId]? = none := h
  unfold send forward
  rw [h']

theorem send_attached (h : s.workers[workerId]? = some w) :
    s.send workerId fwd =
      ((w.handleCommand { fwd with reqId := s.shared.nextReq }).2.getD workerDisconnected,
        s.numbered.withWorker workerId
          (w.handleCommand { fwd with reqId := s.shared.nextReq }).1) := by
  have h' : s.numbered.workers[workerId]? = some w := h
  unfold send forward
  rw [h']

theorem send_keeps (h : fwd.type = .wkActivate ∨ fwd.type = .wkDeactivate) :
    (s.send workerId fwd).2 = s.numbered := by
  cases hw : s.workers[workerId]? with
  | none => rw [send_detached hw]
  | some w =>
    have hkeeps : (w.handleCommand { fwd with reqId := s.shared.nextReq }).1 = w :=
      WorkerService.handleCommand_keeps h
    rw [send_attached hw, hkeeps]
    exact withWorker_self hw

theorem send_invalidate {id : AdapterId} :
    (s.send workerId { type := .wkInvalidate, text := id.str }).2 =
      s.numbered.dropped workerId id := by
  cases hw : s.workers[workerId]? with
  | none =>
    rw [send_detached hw]
    unfold dropped
    rw [Table.modify_eq_self.mpr]
    intro w hw'
    cases hw.symm.trans hw'
  | some w =>
    rw [send_attached hw]
    unfold dropped
    rw [Table.modify_eq_insert (t := s.numbered.workers) hw]
    rfl

end Send

/-! ## Requests -/

section Requests

variable {s : Cluster} {req : Message}

theorem request_registerAdapter (h : req.type = .ctlRegisterAdapter) :
    (s.request req).2 = s ∨
    ∃ d, (s.request req).2 = s.withFabric (s.shared.fabric.registerAdapter d).2 := by
  rw [request_eq, Ctl.dispatch_registerAdapter h]
  unfold Ctl.registerAdapter
  cases hd : deserializeAdapter req.payload with
  | error e =>
    rw [Ctl.evalBy_orThrow_error rfl]
    exact .inl rfl
  | ok d =>
    rw [Ctl.evalBy_orThrow_ok rfl, eval_locked_bind]
    dsimp only
    rw [Ctl.evalBy_orThrow_pure]
    exact .inr ⟨d, rfl⟩

/-- The fence of the request is current, and its adapter is `d`. -/
structure Passes (s : Shared) (req : Message) (fence : AuthorityFence) (d : AdapterDescriptor) :
    Prop where
  decoded : decodeFence req.payload = .ok fence
  authorized : (s.fabric.checkFence fence).authorized = true
  adapter : s.fabric.adapter fence.adapter = some d

theorem exists_passes {fence : AuthorityFence} (hfence : decodeFence req.payload = .ok fence)
    (hauth : (s.shared.fabric.checkFence fence).authorized = true) :
    ∃ d, Passes s.shared req fence d := by
  obtain ⟨d, _, hc⟩ := Fabric.checkFence_authorized.mp hauth
  exact ⟨d, hfence, hauth, hc.adapter⟩

/-- The state once an instance is created and its load is sent. -/
def loading (s : Cluster) (d : AdapterDescriptor) (fence : AuthorityFence) : Cluster :=
  ({ s with shared := created s.shared d fence } : Cluster).numbered

/-- The state once the worker `w` has acknowledged the load. -/
def loaded (s : Cluster) (d : AdapterDescriptor) (fence : AuthorityFence) (workerId : Bytes)
    (w : WorkerService) : Cluster :=
  let marked := ((Section.markReady (nextInstance s.shared) 1).run (s.loading d fence).shared).2
  { shared := ((Section.setReady fence.adapter).run marked).2
    workers := s.workers.insert workerId
      { w with localResidency := w.localResidency.insert fence.adapter.str (true, 1) } }

/-- A load is refused, is left alone by its worker, or is acknowledged with one byte whatever the
size of the adapter: the command does not carry it. -/
theorem request_load (h : req.type = .ctlLoad) :
    ((∀ fence d, ¬ Passes s.shared req fence d) ∧ (s.request req).1.ok = false ∧
      (s.request req).2 = s) ∨
    ∃ fence d, Passes s.shared req fence d ∧
      ((s.workers[req.text2]? = none ∧ (s.request req).1.ok = false ∧
          (s.request req).2 = s.loading d fence) ∨
        ∃ w, s.workers[req.text2]? = some w ∧ (s.request req).1.ok = true ∧
          (s.request req).1.text2 = (nextInstance s.shared).str ∧
          (s.request req).2 = s.loaded d fence req.text2 w) := by
  rw [request_eq, Ctl.dispatch_load h]
  unfold Ctl.load
  cases hfence : decodeFence req.payload with
  | error e =>
    rw [Ctl.evalBy_orThrow_error rfl]
    refine .inl ⟨fun fence d hp => ?_, rfl, rfl⟩
    cases hfence.symm.trans hp.decoded
  | ok fence =>
    rw [Ctl.evalBy_orThrow_ok rfl, eval_locked_bind]
    by_cases hauth : (s.shared.fabric.checkFence fence).authorized = true
    · obtain ⟨d, hp⟩ := exists_passes hfence hauth
      have hpre : ((Section.precheck fence).run s.shared).1.authorized = true := hauth
      have hrun : (Section.createInstance fence).run ((Section.precheck fence).run s.shared).2 =
          (.ok (nextInstance s.shared), created s.shared d fence) :=
        Ctl.run_createInstance hp.adapter
      refine .inr ⟨fence, d, hp, ?_⟩
      rw [if_neg (not_not.mpr hpre), eval_locked_bind, hrun, Ctl.evalBy_orThrow_ok rfl,
        eval_forward_bind]
      dsimp only
      cases hw : s.workers[req.text2]? with
      | none =>
        rw [send_detached (s := { s with shared := created s.shared d fence }) hw]
        exact .inl ⟨rfl, rfl, rfl⟩
      | some w =>
        rw [send_attached (s := { s with shared := created s.shared d fence }) hw]
        exact .inr ⟨w, rfl, rfl, rfl, rfl⟩
    · have hpre : ¬ ((Section.precheck fence).run s.shared).1.authorized = true := hauth
      rw [if_pos hpre]
      refine .inl ⟨fun fence' d hp => ?_, rfl, rfl⟩
      cases hfence.symm.trans hp.decoded
      exact hauth hp.authorized

/-- An eviction leaves the worker as it is: it gets a `wk_deactivate`. -/
theorem request_evict (h : req.type = .ctlEvict) :
    ((∀ inst : AdapterInstanceId, mustParse req.text ≠ .ok inst) ∧ (s.request req).1.ok = false ∧
      (s.request req).2 = s) ∨
    ∃ inst, mustParse req.text = .ok inst ∧
      (s.request req).1.ok = (s.shared.fabric.evict inst).1.1 ∧
      (s.request req).2 =
        ({ s with shared := ((Section.evict inst).run s.shared).2 } : Cluster).numbered := by
  rw [request_eq, Ctl.dispatch_evict h]
  unfold Ctl.evict
  cases hid : (mustParse req.text : Except Error AdapterInstanceId) with
  | error e =>
    rw [Ctl.evalBy_orThrow_error rfl]
    exact .inl ⟨fun _ => nofun, rfl, rfl⟩
  | ok inst =>
    rw [Ctl.evalBy_orThrow_ok rfl, eval_locked_bind]
    refine .inr ⟨inst, rfl, ?_⟩
    dsimp only
    rw [eval_forward_bind, send_keeps (.inr rfl)]
    exact ⟨rfl, rfl⟩

/-- An invalidation leaves the residencies of the coordinator as they are. -/
theorem request_invalidate (h : req.type = .ctlInvalidate) :
    ((∀ id : AdapterId, mustParse req.text ≠ .ok id) ∧ (s.request req).2 = s) ∨
    ∃ id reason, mustParse req.text = .ok id ∧ (s.request req).2 =
      ((s.withFabric (s.shared.fabric.invalidate id .manual reason).2).numbered.dropped
        req.text2 id) := by
  rw [request_eq, Ctl.dispatch_invalidate h]
  unfold Ctl.invalidate
  cases hid : (mustParse req.text : Except Error AdapterId) with
  | error e =>
    rw [Ctl.evalBy_orThrow_error rfl]
    exact .inl ⟨fun _ => nofun, rfl⟩
  | ok id =>
    rw [Ctl.evalBy_orThrow_ok rfl, eval_locked_bind]
    refine .inr ⟨id, if req.text4.isEmpty then ascii "manual invalidation" else req.text4, rfl, ?_⟩
    dsimp only
    rw [eval_forward_bind, send_invalidate]
    rfl

/-! ### What neither side notices -/

/-- Both sides hold what they held. -/
structure SameResidency (s s' : Cluster) : Prop where
  workers : s'.workers = s.workers
  residencies : s'.shared.fabric.residencies = s.shared.fabric.residencies

theorem registerAdapter_same (h : req.type = .ctlRegisterAdapter) :
    SameResidency s (s.request req).2 := by
  rcases request_registerAdapter (s := s) h with he | ⟨d, he⟩
  · rw [he]
    exact ⟨rfl, rfl⟩
  · rw [he]
    refine ⟨rfl, ?_⟩
    obtain ⟨_, _, hd⟩ := Fabric.registerAdapter_frame s.shared.fabric d
    simp only [withFabric, hd]

theorem bindAuthority_residencies (f : Fabric) (id : AdapterId) (fence : AuthorityFence) :
    (f.bindAuthority id fence).2.residencies = f.residencies := by
  obtain ⟨_, _, _, he⟩ := f.bindAuthority_frame id fence
  rw [he]

theorem activate_same (h : req.type = .ctlActivate) : SameResidency s (s.request req).2 := by
  rw [request_eq, Ctl.dispatch_activate h]
  unfold Ctl.activate
  cases hfence : decodeFence req.payload with
  | error e =>
    rw [Ctl.evalBy_orThrow_error rfl]
    exact ⟨rfl, rfl⟩
  | ok fence =>
    rw [Ctl.evalBy_orThrow_ok rfl, eval_locked_bind]
    split
    · exact ⟨rfl, rfl⟩
    · rw [eval_forward_bind, send_keeps (.inl rfl)]
      split
      · rw [eval_locked_bind]
        dsimp only
        rw [Ctl.evalBy_orThrow_pure]
        exact ⟨rfl, bindAuthority_residencies _ _ _⟩
      · exact ⟨rfl, rfl⟩

theorem deactivate_same (h : req.type = .ctlDeactivate) : SameResidency s (s.request req).2 := by
  rw [request_eq, Ctl.dispatch_deactivate h]
  unfold Ctl.deactivate
  cases hid : (mustParse req.text : Except Error AdapterId) with
  | error e =>
    rw [Ctl.evalBy_orThrow_error rfl]
    exact ⟨rfl, rfl⟩
  | ok id =>
    rw [Ctl.evalBy_orThrow_ok rfl, eval_forward_bind, send_keeps (.inr rfl), eval_locked_bind]
    exact ⟨rfl, rfl⟩

theorem epoch_same (h : req.type = .ctlEpoch) : SameResidency s (s.request req).2 := by
  rw [request_eq, Ctl.dispatch_epoch h]
  exact ⟨rfl, rfl⟩

end Requests

/-! ## Instances that may be evicted -/

/-- No instance is referenced or pinned. -/
def Free (f : Fabric) : Prop :=
  ∀ (k : Bytes) (r : ResidencyRecord), f.residencies[k]? = some r →
    r.activeRefs = 0 ∧ r.pinCount = 0 ∧ r.protected_ = false

section Free

variable {f : Fabric} {s : Cluster}

theorem Free.of_empty (h : f.residencies = ∅) : Free f := by
  intro k r hr
  rw [h, Std.ExtTreeMap.getElem?_empty] at hr
  cases hr

theorem Free.congr {f' : Fabric} (h : Free f) (hresidencies : f'.residencies = f.residencies) :
    Free f' := by
  intro k r hr
  rw [hresidencies] at hr
  exact h k r hr

theorem Free.wkRegister (h : Free f) (msg : Message) : Free (wkRegister f msg) := by
  rcases wkRegister_cases f msg with he | ⟨rec, _, _, _, he⟩
  · rwa [he]
  · rw [he]
    intro k r hr
    obtain ⟨r₀, hr₀, rfl⟩ := Option.map_eq_some_iff.mp (Std.ExtTreeMap.getElem?_map.symm.trans hr)
    have hfree := h k r₀ hr₀
    split
    · exact hfree
    · exact hfree

theorem Free.loading (h : Free s.shared.fabric) (d : AdapterDescriptor) (fence : AuthorityFence) :
    Free (s.loading d fence).shared.fabric := by
  intro k r hr
  rcases Table.of_insert hr with ⟨_, rfl⟩ | hr
  · exact ⟨rfl, rfl, rfl⟩
  · exact h k r hr

theorem Free.loaded (h : Free s.shared.fabric) (d : AdapterDescriptor) (fence : AuthorityFence)
    (workerId : Bytes) (w : WorkerService) :
    Free (s.loaded d fence workerId w).shared.fabric := by
  intro k r hr
  rcases Table.of_modify hr with ⟨_, r₀, hr₀, rfl⟩ | hr
  · exact h.loading d fence k r₀ hr₀
  · exact h.loading d fence k r hr

theorem Free.evict_cases (h : Free f) (inst : AdapterInstanceId) :
    (f.residency inst = none ∧ (f.evict inst).1.1 = false ∧ (f.evict inst).2 = f) ∨
    ∃ r, f.residency inst = some r ∧ (f.evict inst).1.1 = true ∧
      (f.evict inst).2 = { f with residencies := f.residencies.erase inst.str } := by
  unfold Fabric.evict
  cases hr : f.residency inst with
  | none => exact .inl ⟨rfl, rfl, rfl⟩
  | some r =>
    obtain ⟨hrefs, hpins, hprotected⟩ := h inst.str r hr
    have hrefs : ¬ r.activeRefs > 0 := by rw [hrefs]; decide
    have hpins : ¬ (r.pinCount > 0 ∨ r.protected_ = true) := by
      rw [hpins, hprotected]
      decide
    refine .inr ⟨r, rfl, ?_⟩
    dsimp only
    rw [if_neg hrefs, if_neg hpins]
    exact ⟨rfl, rfl⟩

theorem run_evict_refused {s : Shared} {inst : AdapterInstanceId}
    (h : (s.fabric.evict inst).1.1 = false) :
    ((Section.evict inst).run s).2.fabric = (s.fabric.evict inst).2 := by
  simp only [Section.run, h]
  rfl

theorem run_evict_done {s : Shared} {inst : AdapterInstanceId} {r : ResidencyRecord}
    (hr : s.fabric.residency inst = some r) (h : (s.fabric.evict inst).1.1 = true) :
    ((Section.evict inst).run s).2.fabric =
      ((s.fabric.evict inst).2.releaseCapacity .deviceMemory r.bytes inst.str).2 := by
  simp only [Section.run, h, hr]
  rfl

theorem Free.evicted {s : Shared} (h : Free s.fabric) (inst : AdapterInstanceId) :
    Free ((Section.evict inst).run s).2.fabric := by
  rcases h.evict_cases inst with ⟨_, hfails, hsame⟩ | ⟨r, hr, hdone, herased⟩
  · rwa [run_evict_refused hfails, hsame]
  · rw [run_evict_done hr hdone, herased]
    exact fun k r hr => h k r (Table.of_erase hr)

end Free

end Cluster

end Coordinator

end AdapterFabric
