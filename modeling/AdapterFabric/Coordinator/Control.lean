import AdapterFabric.Coordinator.Section
import AdapterFabric.Lib.Interleave

/-!
# AdapterFabric.Coordinator.Control

`process_control` as a program over atomic effects, and the coordinator as the system of all its
threads (`coordinator.cpp`).

Between two critical sections of a request anything may happen: sections of other requests, and
worker registrations and disconnects. A forwarded command may be answered by any message, the
worker's own or a `wk_error` that the coordinator makes up.

* `Step.fabric_cases`: what one step does to the Fabric.
* `Steps.refines`: what an interleaving does to it is a run of Fabric operations.
* `Reaches`: states that runs reach when requests go on alone; `ReachesBy`: by steps of a kind.
-/

namespace AdapterFabric

namespace Coordinator

open Interleave

inductive Effect where
  /-- a critical section under `state_mc_` -/
  | locked (sec : Section)
  /-- `next_req_++` -/
  | nextReq
  /-- the rest of `forward_to_worker` -/
  | forward (reqId : UInt64) (workerId : Bytes) (fwd : Message)
  | shutdown

abbrev Effect.Res : Effect → Type
  | locked sec => sec.Res
  | nextReq => UInt64
  | forward _ _ _ => Message
  | shutdown => Unit

/-- A handler of `process_control`, which may throw. -/
abbrev Ctl := ExceptT Error (Prog Effect Effect.Res)

namespace Ctl

def locked (sec : Section) : Ctl sec.Res := ExceptT.lift (Prog.call (Effect.locked sec))

def orThrow {α : Type} (r : Except Error α) : Ctl α := ExceptT.mk (pure r)

def forwardToWorker (workerId : Bytes) (fwd : Message) : Ctl Message := do
  let reqId ← ExceptT.lift (Prog.call Effect.nextReq)
  ExceptT.lift (Prog.call (Effect.forward reqId workerId fwd))

/-- `out` as it is declared. -/
def out : Message := { type := .ctlResult }

def registerAdapter (req : Message) : Ctl Message := do
  let d ← orThrow (deserializeAdapter req.payload)
  let reg ← orThrow (← locked (.registerAdapter d))
  pure { out with
    ok := true, text := reg.id.str, a := reg.generation.value, payload := serializeAdapter reg }

def validate (req : Message) : Ctl Message := do
  let baseModel ← orThrow (mustParse req.text2)
  let baseModelRevision ← orThrow (mustParse req.text3)
  let t : CompatibilityTarget := {
    baseModel, baseModelRevision, policyGeneration := ⟨1⟩
    runtimeCapabilities :=
      ((∅ : Std.ExtTreeMap Bytes Bytes compare).insert (ascii "fp16") (ascii "supported")).insert
        (ascii "sm_120") (ascii "supported") }
  let rep ← orThrow (← locked (.validate req.text t))
  pure { out with ok := rep.compatible, text := rep.summary, payload := rep.toJson }

def load (req : Message) : Ctl Message := do
  let fence ← orThrow (decodeFence req.payload)
  let pre ← locked (.precheck fence)
  if ¬ pre.authorized then
    pure { out with ok := false, text := pre.reason }
  else
    let workerId := req.text2
    let inst ← orThrow (← locked (.createInstance fence))
    let ack ← forwardToWorker workerId {
      type := .wkLoad, text := fence.adapter.str, text2 := inst.str, payload := encodeFence fence }
    if ack.ok then
      locked (.markReady inst ack.a)
      locked (.setReady fence.adapter)
      pure { out with ok := true, text := ascii "loaded", text2 := inst.str }
    else
      pure { out with ok := false, text := ack.text, text2 := inst.str }

def activate (req : Message) : Ctl Message := do
  let fence ← orThrow (decodeFence req.payload)
  let pre ← locked (.precheck fence)
  if ¬ pre.authorized then
    pure { out with ok := false, text := pre.reason }
  else
    let workerId := req.text2
    let ack ← forwardToWorker workerId {
      type := .wkActivate, text := fence.adapter.str, payload := encodeFence fence }
    if ack.ok then
      let chk ← orThrow (← locked (.bind fence))
      pure { out with ok := chk.authorized, text := chk.reason }
    else
      pure { out with ok := false, text := ack.text }

def deactivate (req : Message) : Ctl Message := do
  let id : AdapterId ← orThrow (mustParse req.text)
  let ack ← forwardToWorker req.text2 { type := .wkDeactivate, text := id.str }
  locked (.setReady id)
  pure { out with ok := ack.ok, text := if ack.ok then ascii "deactivated" else ack.text }

def migrate (req : Message) : Ctl Message := do
  let fence ← orThrow (decodeFence req.payload)
  let ack ← forwardToWorker req.text2 {
    type := .wkMigrate, text := fence.adapter.str, text2 := req.text2
    payload := encodeFence fence }
  pure { out with ok := ack.ok, text := if ack.ok then ascii "migrated" else ack.text }

def invalidate (req : Message) : Ctl Message := do
  let id : AdapterId ← orThrow (mustParse req.text)
  let rec ← locked (.invalidate id
    (if req.text4.isEmpty then ascii "manual invalidation" else req.text4))
  let _ ← forwardToWorker req.text2 { type := .wkInvalidate, text := id.str }
  pure { out with ok := true, text := ascii "invalidated: " ++ rec.reason }

def evict (req : Message) : Ctl Message := do
  let inst ← orThrow (mustParse req.text)
  let (ok, reason) ← locked (.evict inst)
  let _ ← forwardToWorker req.text2 { type := .wkDeactivate, text := inst.str }
  pure { out with ok, text := reason }

def pin (req : Message) : Ctl Message := do
  orThrow (← locked (.pin req.text))
  pure { out with ok := true, text := ascii "pinned" }

def unpin (req : Message) : Ctl Message := do
  orThrow (← locked (.unpin req.text))
  pure { out with ok := true, text := ascii "unpinned" }

def snapshot : Ctl Message := do
  let snap ← locked .snapshot
  pure { out with payload := snap, ok := true, text := ascii "snapshot" }

def list : Ctl Message := do
  let os ← locked .list
  pure { out with ok := true, text := os }

/-- The non-empty lines of a payload: `std::getline` up to each newline. -/
def lines (payload : Bytes) : List Bytes := (payload.splitOn 10).filter (¬ ·.isEmpty)

def compose (req : Message) : Ctl Message := do
  let ids ← orThrow ((lines req.payload).mapM mustParse)
  let c ← orThrow (← locked (.compose ids
    (if req.text4.isEmpty then ascii "default" else req.text4)))
  pure { out with ok := c.isValid, text := c.digest, text2 := c.id.str, a := c.generation.value }

def epoch : Ctl Message := do
  let e ← locked .epoch
  pure { out with ok := true, a := e, text := decimal e.toNat }

def capacity : Ctl Message := do
  let os ← locked .capacity
  pure { out with ok := true, text := os }

def shutdown : Ctl Message := do
  ExceptT.lift (Prog.call Effect.shutdown)
  pure { out with ok := true, text := ascii "shutdown" }

/-- The `switch` of `process_control`. -/
def dispatch (req : Message) : Ctl Message :=
  if req.type = .ctlRegisterAdapter then registerAdapter req
  else if req.type = .ctlValidate then validate req
  else if req.type = .ctlLoad then load req
  else if req.type = .ctlActivate then activate req
  else if req.type = .ctlDeactivate then deactivate req
  else if req.type = .ctlMigrate then migrate req
  else if req.type = .ctlInvalidate then invalidate req
  else if req.type = .ctlEvict then evict req
  else if req.type = .ctlPin then pin req
  else if req.type = .ctlUnpin then unpin req
  else if req.type = .ctlSnapshot then snapshot
  else if req.type = .ctlList then list
  else if req.type = .ctlCompose then compose req
  else if req.type = .ctlEpoch then epoch
  else if req.type = .ctlCapacity then capacity
  else if req.type = .ctlShutdown then shutdown
  else if req.type = .ping then pure { out with ok := true, type := .pong }
  else pure { out with ok := false, text := ascii "unhandled control message" }

section Dispatch

variable {req : Message}

theorem dispatch_registerAdapter (h : req.type = .ctlRegisterAdapter) :
    dispatch req = registerAdapter req := by
  unfold dispatch
  rw [h]
  rfl

theorem dispatch_load (h : req.type = .ctlLoad) : dispatch req = load req := by
  unfold dispatch
  rw [h]
  rfl

theorem dispatch_activate (h : req.type = .ctlActivate) : dispatch req = activate req := by
  unfold dispatch
  rw [h]
  rfl

theorem dispatch_deactivate (h : req.type = .ctlDeactivate) : dispatch req = deactivate req := by
  unfold dispatch
  rw [h]
  rfl

theorem dispatch_migrate (h : req.type = .ctlMigrate) : dispatch req = migrate req := by
  unfold dispatch
  rw [h]
  rfl

theorem dispatch_invalidate (h : req.type = .ctlInvalidate) : dispatch req = invalidate req := by
  unfold dispatch
  rw [h]
  rfl

theorem dispatch_evict (h : req.type = .ctlEvict) : dispatch req = evict req := by
  unfold dispatch
  rw [h]
  rfl

theorem dispatch_epoch (h : req.type = .ctlEpoch) : dispatch req = epoch := by
  unfold dispatch
  rw [h]
  rfl

end Dispatch

end Ctl

/-- `process_control`: an `Error` of the handler becomes the answer. -/
def processControl (req : Message) : Prog Effect Effect.Res Message := do
  match ← (Ctl.dispatch req).run with
  | .ok out => pure out
  | .error e =>
    pure { Ctl.out with ok := false, text := e.code.toBytes ++ ascii ": " ++ e.message }

/-! ## The system -/

/-- What a connection thread does to the Fabric besides processing requests. -/
inductive WorkerEvent where
  /-- a `wk_register` message -/
  | register (msg : Message)
  /-- the end of the connection of a registered worker -/
  | down (id : WorkerId)

def exec (s : Shared) : (e : Effect) → Effect.Res e → Shared → Prop
  | .locked sec, r, s' => sec.run s = (r, s')
  | .nextReq, r, s' => r = s.nextReq ∧ s' = { s with nextReq := s.nextReq + 1 }
  | .forward _ _ _, _, s' => s' = s
  | .shutdown, _, s' => s' = { s with shutdown := true }

def env (s : Shared) : WorkerEvent → Shared → Prop
  | .register msg, s' => s' = { s with fabric := wkRegister s.fabric msg }
  | .down id, s' => s' = { s with fabric := s.fabric.onWorkerDown id }

def system : System Shared Effect Effect.Res WorkerEvent Message Message where
  exec := exec
  env := env
  start := processControl

abbrev Config := Interleave.Config Shared Effect Effect.Res Message

abbrev Label := Interleave.Label Effect Effect.Res WorkerEvent Message

abbrev Step : Config → Label → Config → Prop := Interleave.Step system

abbrev Steps : Config → List Label → Config → Prop := Interleave.Steps system

/-- A coordinator that has just been constructed. -/
def Initial (c : Config) : Prop :=
  ∃ limits rng, c = ⟨{ fabric := .ofLimits limits, rng }, fun _ => none⟩

theorem Initial.fresh {c : Config} (h : Initial c) : c.shared.fabric.Fresh := by
  obtain ⟨limits, rng, rfl⟩ := h
  exact .ofLimits limits

/-! ## What the steps do to the Fabric -/

/-- The Fabric operations an effect performs: those of its section, if it is one. -/
def Effect.ops : Effect → Shared → List Fabric.Op
  | locked sec, s => sec.ops s
  | _, _ => []

theorem Effect.ops_isControl (e : Effect) (s : Shared) :
    ∀ op ∈ e.ops s, Section.IsControl op := by
  cases e with
  | locked sec => exact sec.ops_isControl s
  | _ => nofun

theorem exec_fabric {s s' : Shared} {e : Effect} {r : e.Res} (h : exec s e r s') :
    s'.fabric = Fabric.run (e.ops s) s.fabric := by
  cases e with
  | locked sec =>
    have hrun := sec.run_refines s
    rwa [show sec.run s = (r, s') from h] at hrun
  | nextReq =>
    obtain ⟨_, rfl⟩ := h
    rfl
  | forward reqId workerId fwd =>
    cases h
    rfl
  | shutdown =>
    cases h
    rfl

theorem exec_refines {s s' : Shared} {e : Effect} {r : e.Res} (h : exec s e r s') :
    ∃ ops, (∀ op ∈ ops, Section.IsControl op) ∧ s'.fabric = Fabric.run ops s.fabric :=
  ⟨e.ops s, e.ops_isControl s, exec_fabric h⟩

section Fabric

variable {c c' : Config} {l : Label} {ls : List Label}

theorem Step.fabric_cases (h : Step c l c') :
    (∃ ops, (∀ op ∈ ops, Section.IsControl op) ∧
      c'.shared.fabric = Fabric.run ops c.shared.fabric) ∨
    (∃ msg, l = .event (.register msg) ∧ c'.shared.fabric = wkRegister c.shared.fabric msg) ∨
    ∃ id, l = .event (.down id) ∧ c'.shared.fabric = c.shared.fabric.onWorkerDown id := by
  rcases Interleave.Step.shared_cases h with ⟨_, _, _, he⟩ | ⟨_, e, r, _, he⟩ | ⟨v, rfl, he⟩
  · exact .inl ⟨[], by simp, by rw [he]; rfl⟩
  · exact .inl (exec_refines he)
  · cases v with
    | register msg => exact .inr (.inl ⟨msg, rfl, congrArg Shared.fabric he⟩)
    | down id => exact .inr (.inr ⟨id, rfl, congrArg Shared.fabric he⟩)

theorem Step.refines (h : Step c l c') :
    ∃ ops, (∀ op ∈ ops, op.Keyed ∧ op.isRecover = false) ∧
      c'.shared.fabric = Fabric.run ops c.shared.fabric := by
  rcases Step.fabric_cases h with ⟨ops, hops, he⟩ | ⟨msg, _, he⟩ | ⟨id, _, he⟩
  · exact ⟨ops, fun op ho => (hops op ho).keyed, he⟩
  · rw [he]
    exact wkRegister_refines _ msg
  · exact ⟨[.onWorkerDown id], by simp [Fabric.Op.Keyed, Fabric.Op.isRecover], he⟩

theorem Steps.refines (h : Steps c ls c') :
    ∃ ops, (∀ op ∈ ops, op.Keyed ∧ op.isRecover = false) ∧
      c'.shared.fabric = Fabric.run ops c.shared.fabric := by
  induction h with
  | nil => exact ⟨[], by simp, rfl⟩
  | cons hstep _ ih =>
    obtain ⟨ops, hops, he⟩ := Step.refines hstep
    obtain ⟨ops', hops', he'⟩ := ih
    refine ⟨ops ++ ops', ?_, by rw [he', he, Fabric.run_append]⟩
    intro op ho
    rcases List.mem_append.mp ho with ho | ho
    · exact hops op ho
    · exact hops' op ho

end Fabric

/-! ## Requests that go on alone -/

/-- The answers to effects when the worker answers every command with `ack`. -/
def answer (ack : Message) (s : Shared) : (e : Effect) → e.Res × Shared
  | .locked sec => sec.run s
  | .nextReq => (s.nextReq, { s with nextReq := s.nextReq + 1 })
  | .forward _ _ _ => (ack, s)
  | .shutdown => ((), { s with shutdown := true })

theorem exec_answer (ack : Message) (s : Shared) (e : Effect) :
    exec s e (answer ack s e).1 (answer ack s e).2 := by
  cases e with
  | locked sec => rfl
  | nextReq => exact ⟨rfl, rfl⟩
  | forward reqId workerId fwd => rfl
  | shutdown => rfl

/-- What is left of the handling of `req`, and the state, after up to `n` effects. -/
def serve (ack : Message) (n : ℕ) (req : Message) (s : Shared) :
    Prog Effect Effect.Res Message × Shared :=
  (processControl req).solo (answer ack) n s

/-- A run from the start leads to `s` and leaves the threads from `m` on free. -/
def Reaches (s : Shared) (m : ℕ) : Prop :=
  ∃ c₀ ls c, Initial c₀ ∧ Steps c₀ ls c ∧ c.shared = s ∧ ∀ j, m ≤ j → c.threads j = none

namespace Reaches

theorem start (limits) (rng : Rng) : Reaches { fabric := .ofLimits limits, rng } 0 :=
  ⟨_, [], _, ⟨limits, rng, rfl⟩, .nil _, rfl, fun _ _ => rfl⟩

variable {s : Shared} {m : ℕ}

theorem request_by {τ : Type} (view : τ → Shared) {ans : τ → (e : Effect) → e.Res × τ}
    (hans : ∀ t e, exec (view t) e (ans t e).1 (view (ans t e).2)) {t : τ}
    (h : Reaches (view t) m) (n : ℕ) (req : Message) :
    ∃ c₀ ls c, Initial c₀ ∧ Steps c₀ ls c ∧
      c.shared = view ((processControl req).solo ans n t).2 ∧
      c.threads m = some ((processControl req).solo ans n t).1 ∧
      ∀ j, m + 1 ≤ j → c.threads j = none := by
  obtain ⟨c₀, ls, c, h₀, hrun, hview, hfree⟩ := h
  obtain ⟨ls', c', hrun', hshared, hthread, hothers⟩ :=
    Interleave.Steps.of_request (S := system) view hans n req hview (hfree m (Nat.le_refl m))
  refine ⟨c₀, ls ++ ls', c', h₀, hrun.append hrun', hshared, hthread, ?_⟩
  intro j hj
  rw [hothers j (by omega)]
  exact hfree j (by omega)

theorem request_thread (h : Reaches s m) (ack : Message) (n : ℕ) (req : Message) :
    ∃ c₀ ls c, Initial c₀ ∧ Steps c₀ ls c ∧ c.shared = (serve ack n req s).2 ∧
      c.threads m = some (serve ack n req s).1 ∧ ∀ j, m + 1 ≤ j → c.threads j = none :=
  request_by id (exec_answer ack) h n req

theorem request (h : Reaches s m) (ack : Message) (n : ℕ) (req : Message) :
    Reaches (serve ack n req s).2 (m + 1) := by
  obtain ⟨c₀, ls, c, h₀, hrun, hshared, _, hfree⟩ := h.request_thread ack n req
  exact ⟨c₀, ls, c, h₀, hrun, hshared, hfree⟩

theorem event (h : Reaches s m) {v : WorkerEvent} {s' : Shared} (henv : env s v s') :
    Reaches s' m := by
  obtain ⟨c₀, ls, c, h₀, hrun, rfl, hfree⟩ := h
  have hstep : Step c (.event v) { c with shared := s' } := .event henv
  exact ⟨c₀, ls ++ [.event v], { c with shared := s' }, h₀, hrun.append (.single hstep), rfl, hfree⟩

/-- A request during which the worker event `v` happens, after `n` of its effects. -/
theorem interrupted (h : Reaches s m) (ack : Message) (n n' : ℕ) (req : Message) {v : WorkerEvent}
    {s' : Shared} (henv : env (serve ack n req s).2 v s') :
    Reaches ((serve ack n req s).1.solo (answer ack) n' s').2 (m + 1) := by
  obtain ⟨c₀, ls, c, h₀, hrun, hshared, hthread, hfree⟩ := h.request_thread ack n req
  rw [← hshared] at henv
  have hstep : Step c (.event v) { c with shared := s' } := .event henv
  obtain ⟨ls', c', hrun', hshared', _, hothers⟩ := Interleave.Steps.of_solo (S := system)
    id (exec_answer ack) n' (c := { c with shared := s' }) rfl hthread
  refine ⟨c₀, ls ++ .event v :: ls', c', h₀, hrun.append (.cons hstep hrun'), hshared', ?_⟩
  intro j hj
  rw [hothers j (by omega)]
  exact hfree j hj

end Reaches

/-- Effects are performed only in states where `ok` allows them. -/
def Allows (ok : Shared → Effect → Bool) (c : Config) : Label → Prop
  | .effect _ e _ => ok c.shared e = true
  | _ => True

/-- `Reaches`, by steps that `ok` allows. -/
def ReachesBy (ok : Shared → Effect → Bool) (s : Shared) (m : ℕ) : Prop :=
  ∃ c₀ ls c, Initial c₀ ∧ Run.Steps (fun c l c' => Step c l c' ∧ Allows ok c l) c₀ ls c ∧
    c.shared = s ∧ ∀ j, m ≤ j → c.threads j = none

namespace ReachesBy

variable {ok : Shared → Effect → Bool} {s : Shared} {m : ℕ}

theorem start (limits) (rng : Rng) : ReachesBy ok { fabric := .ofLimits limits, rng } 0 :=
  ⟨_, [], _, ⟨limits, rng, rfl⟩, .nil _, rfl, fun _ _ => rfl⟩

theorem event (h : ReachesBy ok s m) {v : WorkerEvent} {s' : Shared} (henv : env s v s') :
    ReachesBy ok s' m := by
  obtain ⟨c₀, ls, c, h₀, hrun, rfl, hfree⟩ := h
  have hstep : Step c (.event v) { c with shared := s' } ∧ Allows ok c (.event v) :=
    ⟨.event henv, trivial⟩
  exact ⟨c₀, _, { c with shared := s' }, h₀, hrun.append (.single hstep), rfl, hfree⟩

theorem request_run (h : ReachesBy ok s m) (ack : Message) (n : ℕ) (req : Message)
    (hmeets : (processControl req).soloMeets (answer ack) ok n s = true) :
    ∃ c₀ ls c, Initial c₀ ∧ Run.Steps (fun c l c' => Step c l c' ∧ Allows ok c l) c₀ ls c ∧
      ls ≠ [] ∧ c.shared = (serve ack n req s).2 ∧ ∀ j, m + 1 ≤ j → c.threads j = none := by
  obtain ⟨c₀, ls, c, h₀, hrun, hview, hfree⟩ := h
  have hok (c : Config) (t : Shared) (i : ℕ) (e : Effect) (hview : c.shared = id t)
      (he : ok t e = true) : Allows ok c (.effect i e (answer ack t e).1) := by
    subst hview
    exact he
  obtain ⟨ls', c', hrun', hshared, _, hothers⟩ := Interleave.Steps.of_request_meets (S := system)
    (C := Allows ok) id (exec_answer ack) hok n req hview (hfree m (Nat.le_refl m)) trivial hmeets
  refine ⟨c₀, _, c', h₀, hrun.append hrun', by simp, hshared, fun j hj => ?_⟩
  rw [hothers j (by omega)]
  exact hfree j (by omega)

theorem request (h : ReachesBy ok s m) (ack : Message) (n : ℕ) (req : Message)
    (hmeets : (processControl req).soloMeets (answer ack) ok n s = true) :
    ReachesBy ok (serve ack n req s).2 (m + 1) := by
  obtain ⟨c₀, ls, c, h₀, hrun, _, hshared, hfree⟩ := h.request_run ack n req hmeets
  exact ⟨c₀, ls, c, h₀, hrun, hshared, hfree⟩

/-- The path of such a run, up to the end of a request. -/
theorem request_path (h : ReachesBy ok s m) (ack : Message) (n : ℕ) (req : Message)
    (hmeets : (processControl req).soloMeets (answer ack) ok n s = true) :
    ∃ c₀ path l c, Initial c₀ ∧ Run.Each Step c₀ path ∧
      Run.Each (fun c l _ => Allows ok c l) c₀ path ∧ (l, c) ∈ path ∧
      c.shared = (serve ack n req s).2 := by
  obtain ⟨c₀, ls, c, h₀, hrun, hne, hshared, _⟩ := h.request_run ack n req hmeets
  obtain ⟨path, hpath, rfl, hlast⟩ := hrun.exists_path
  obtain ⟨l, hl⟩ := hlast hne
  exact ⟨c₀, path, l, c, h₀, hpath.imp fun _ _ _ h => h.1, hpath.imp fun _ _ _ h => h.2, hl,
    hshared⟩

end ReachesBy

end Coordinator

end AdapterFabric
