import AdapterFabric.Coordinator.Discipline
import AdapterFabric.Coordinator.Forwarding
import AdapterFabric.Coordinator.Readiness
import AdapterFabric.Fabric.Residency

/-!
# AdapterFabric.Coordinator.Loading

What a request has to have done before it makes a residency ready: a load is forwarded only after
the fence that it carries was authorized, and its residency is made ready only after the worker
acknowledged it.

* `loads_processControl`: so it is for every request.
* `Loads.move`: so the commands of a run are as requests promise them, and every ready residency was
  acknowledged with the bytes it has.
-/

namespace AdapterFabric

namespace Coordinator

open Interleave

/-- The command names the adapter of the fence, and carries the fence. -/
def CarriesFence (cmd : Message) (fence : AuthorityFence) : Prop :=
  cmd.text = fence.adapter.str ∧ cmd.payload = encodeFence fence

/-- How far a load has come. -/
inductive LoadPhase where
  | fresh
  /-- the fence of the request was authorized -/
  | vetted (fence : AuthorityFence)
  /-- the worker has acknowledged the load of the instance, with its bytes -/
  | acked (inst : Bytes) (bytes : UInt64)

def loading : Rule LoadPhase
  | .locked (.precheck F), K, g => ∀ r : AuthorityCheck,
    K r (if r.authorized then .vetted F else g)
  | .locked (.markReady inst bytes), K, g => g = .acked inst.str bytes ∧ ∀ r, K r g
  | .locked _, K, g => ∀ r, K r g
  | .nextReq, K, g => ∀ n, K n g
  | .forward _ _ fwd, K, g =>
    IsCommand fwd ∧ (fwd.type = .wkLoad → ∃ fence, g = .vetted fence ∧ CarriesFence fwd fence) ∧
      ∀ r : Message, K r (if fwd.type = .wkLoad ∧ r.ok then .acked fwd.text2 r.a else g)
  | .shutdown, K, g => ∀ r, K r g

namespace Ctl

/-- Commands other than loads may be forwarded at any time. -/
theorem forwards_loading {type : MsgType} (htype : type ≠ .wkLoad) : Forwards loading type := by
  refine ⟨fun _ hK g n => hK n g, fun n workerId fwd hcmd hfwd K hK g => ?_⟩
  exact ⟨hcmd, fun hload => absurd (hfwd ▸ hload) htype, fun r => hK r _⟩

theorem asks_loading {sec : Section} (hpre : ∀ F, sec ≠ .precheck F)
    (hmark : ∀ inst bytes, sec ≠ .markReady inst bytes) : Asks loading (.locked sec) := by
  intro K hK g
  cases sec with
  | precheck F => exact absurd rfl (hpre F)
  | markReady inst bytes => exact absurd rfl (hmark inst bytes)
  | _ => exact fun r => hK r g

/-- A load is checked, forwarded, acknowledged and only then marked. -/
theorem starts_load (req : Message) : Starts loading .fresh (load req) := by
  intro Q hQ
  show wp loading (load req) Q .fresh
  unfold load
  refine wp_orThrow_bind (fun fence _ => ?_) fun e _ => hQ _ _
  rw [wp_locked_bind]
  intro pre
  refine wp_ite (fun _ => hQ _ _) fun hpre => ?_
  rw [if_pos (not_not.mp hpre), wp_locked_bind]
  intro created
  refine wp_orThrow_bind (fun inst _ => ?_) fun e _ => hQ _ _
  rw [wp_forward_bind]
  intro n
  refine ⟨⟨by simp, rfl, rfl⟩, fun _ => ⟨fence, rfl, rfl, rfl⟩, fun ack => ?_⟩
  refine wp_ite (fun hok => ?_) fun _ => hQ _ _
  rw [if_pos ⟨rfl, hok⟩, wp_locked_bind]
  refine ⟨rfl, fun _ => ?_⟩
  intro _
  exact hQ _ _

theorem asks_precheck (F : AuthorityFence) : Asks loading (.locked (.precheck F)) :=
  fun _ hK _ r => hK r _

theorem asks_shutdown : Asks loading .shutdown := fun _ hK g r => hK r g

theorem allStart_loading (req : Message) : AllStart loading .fresh req where
  registerAdapter := Free.registerAdapter req (fun _ => asks_loading nofun nofun) _
  validate := Free.validate req (fun _ _ => asks_loading nofun nofun) _
  load := starts_load req
  activate := Free.activate req asks_precheck (forwards_loading (by decide))
    (fun _ => asks_loading nofun nofun) _
  deactivate := Free.deactivate req (forwards_loading (by decide))
    (fun _ => asks_loading nofun nofun) _
  migrate := Free.migrate req (forwards_loading (by decide)) _
  invalidate := Free.invalidate req (fun _ _ => asks_loading nofun nofun)
    (forwards_loading (by decide)) _
  evict := Free.evict req (fun _ => asks_loading nofun nofun) (forwards_loading (by decide)) _
  pin := Free.pin req (fun _ => asks_loading nofun nofun) _
  unpin := Free.unpin req (fun _ => asks_loading nofun nofun) _
  snapshot := Free.snapshot (asks_loading nofun nofun) _
  list := Free.list (asks_loading nofun nofun) _
  compose := Free.compose req (fun _ _ => asks_loading nofun nofun) _
  epoch := Free.epoch (asks_loading nofun nofun) _
  capacity := Free.capacity (asks_loading nofun nofun) _
  shutdown := Free.shutdown asks_shutdown _

end Ctl

theorem loads_processControl (req : Message) : Keeps loading .fresh (processControl req) :=
  keeps_processControl (Ctl.allStart_loading req)

/-! ## Ready residencies -/

/-- Every ready residency has bytes that `A` allows it. -/
def ReadyAs (A : Bytes → UInt64 → Prop) (f : Fabric) : Prop :=
  ∀ inst r, f.residency inst = some r → r.ready = true → A inst.str r.bytes

section ReadyAs

open Fabric (Op)

variable {A A' : Bytes → UInt64 → Prop} {f : Fabric}

theorem ReadyAs.imp (h : ReadyAs A f) (hA : ∀ inst bytes, A inst bytes → A' inst bytes) :
    ReadyAs A' f := fun inst r hr hready => hA _ _ (h inst r hr hready)

theorem ReadyAs.apply {o : Op} (h : ReadyAs A f)
    (hop : ∀ inst bytes, o = .markReady inst bytes → A inst.str bytes) :
    ReadyAs A (o.apply f) := by
  intro inst r hr hready
  rcases Fabric.residency_cases hr with ⟨_, _, _, _, _, _, _, -, -, -, rfl⟩ | ⟨r₀, hr₀, hcases⟩
  · cases hready
  · rcases hcases with ⟨-, rfl⟩ | ⟨-, rfl⟩ | ⟨bytes, rfl, rfl⟩ | ⟨-, -, rfl | ⟨_, rfl⟩⟩
    · exact h inst r₀ hr₀ hready
    · exact h inst r₀ hr₀ hready
    · exact hop inst bytes rfl
    · exact h inst r hr₀ hready
    · cases hready

theorem ReadyAs.run {ops : List Op} (h : ReadyAs A f)
    (hops : ∀ op ∈ ops, ∀ inst bytes, op = .markReady inst bytes → A inst.str bytes) :
    ReadyAs A (Fabric.run ops f) :=
  Run.exec_preserves (P := ReadyAs A) (fun op ho _ h => h.apply (hops op ho)) h

/-- Sections other than that of an acknowledged load make nothing ready. -/
theorem ReadyAs.section {sec : Section} {s : Shared} (h : ReadyAs A s.fabric)
    (hmark : ∀ inst bytes, sec = .markReady inst bytes → A inst.str bytes) :
    ReadyAs A (sec.run s).2.fabric := by
  rw [sec.run_refines]
  refine h.run fun op ho inst bytes hop => ?_
  by_cases hsec : ∃ inst' bytes', sec = .markReady inst' bytes'
  · obtain ⟨inst', bytes', rfl⟩ := hsec
    simp only [Section.ops, List.mem_cons, List.not_mem_nil, or_false, hop] at ho
    rcases ho with ho | ho
    · cases ho
      exact hmark _ _ rfl
    · cases ho
  · have hnot : ¬ MarksReady (.locked sec) := by
      intro hm
      cases sec with
      | markReady inst' bytes' => exact hsec ⟨inst', bytes', rfl⟩
      | _ => exact hm
    have hfalse := section_marks s hnot op ho
    rw [hop] at hfalse
    cases hfalse

theorem ReadyAs.wkRegister (h : ReadyAs A f) (msg : Message) :
    ReadyAs A (Coordinator.wkRegister f msg) := by
  rcases wkRegister_cases f msg with he | ⟨rec, -, -, -, he⟩
  · rwa [he]
  · rw [he]
    have hregistered : ReadyAs A (f.registerWorker rec) := h.apply (o := .registerWorker rec) nofun
    exact hregistered.apply (o := .onWorkerRestart rec.id rec.boot) nofun

theorem ReadyAs.onWorkerDown (h : ReadyAs A f) (id : WorkerId) : ReadyAs A (f.onWorkerDown id) :=
  h.apply (o := .onWorkerDown id) nofun

end ReadyAs

/-! ## Runs -/

/-- A load of the instance was acknowledged with `bytes`. -/
def LoadAcked (H : History) (inst : Bytes) (bytes : UInt64) : Prop :=
  ∃ r ∈ H.returned, IsCommand r.call.fwd ∧ r.call.fwd.type = .wkLoad ∧ r.call.fwd.text2 = inst ∧
    r.result.ok = true ∧ r.result.a = bytes

/-- `V` holds of the fences that were authorized. -/
def LoadPhase.Means (V : AuthorityFence → Prop) (H : History) : LoadPhase → Prop
  | fresh => True
  | vetted fence => V fence
  | acked inst bytes => LoadAcked H inst bytes

/-- What a request promises of the command it forwards. -/
structure Promised (V : AuthorityFence → Prop) (cmd : Message) : Prop extends IsCommand cmd where
  vetted : cmd.type = .wkLoad → ∃ fence, V fence ∧ CarriesFence cmd fence

namespace Server

structure Loads (V : AuthorityFence → Prop) (s : Server) : Prop where
  obeys : s.Obeys loading fun _ => LoadPhase.Means V s.history
  sent : ∀ x ∈ s.history.sent, Promised V x.cmd
  ready : ReadyAs (LoadAcked s.history) s.shared.fabric

variable {V V' : AuthorityFence → Prop} {s s' : Server}

theorem Means.grows {H H' : History} (hV : ∀ fence, V fence → V' fence)
    (hret : ∀ r ∈ H.returned, r ∈ H'.returned) {g : LoadPhase} (h : g.Means V H) :
    g.Means V' H' := by
  cases g with
  | fresh => trivial
  | vetted fence => exact hV fence h
  | acked inst bytes =>
    obtain ⟨r, hr, hload⟩ := h
    exact ⟨r, hret r hr, hload⟩

theorem Loads.imp (h : s.Loads V) (hV : ∀ fence, V fence → V' fence) : s.Loads V' := by
  refine ⟨fun c hd hh => ?_, fun x hx => ?_, h.ready⟩
  · exact Handler.Obeys.imp (h.obeys c hd hh) fun g hg => Means.grows hV (fun _ hr => hr) hg
  · obtain ⟨hcmd, hvetted⟩ := h.sent x hx
    refine ⟨hcmd, fun hload => ?_⟩
    obtain ⟨fence, hfence, hcarries⟩ := hvetted hload
    exact ⟨fence, hV fence hfence, hcarries⟩

theorem loading_sound {a : Action} (hm : Move s a s')
    (hauth : ∀ F, (s.shared.fabric.checkFence F).authorized = true → V F) :
    Sound loading (fun _ => LoadPhase.Means V s.history) (fun _ => LoadPhase.Means V s'.history)
      s s' where
  start _ req := ⟨.fresh, trivial, loads_processControl req⟩
  keep _ _ h := Means.grows (fun _ hV => hV) hm.returned h
  locked _ sec K g _ hg hK := by
    have hg' := Means.grows (fun _ hV => hV) hm.returned hg
    cases sec with
    | precheck F =>
      refine ⟨_, ?_, hK (s.shared.fabric.checkFence F)⟩
      by_cases hpre : (s.shared.fabric.checkFence F).authorized = true
      · rw [if_pos hpre]
        exact hauth F hpre
      · rwa [if_neg hpre]
    | markReady inst bytes => exact ⟨g, hg', hK.2 _⟩
    | _ => exact ⟨g, hg', hK _⟩
  nextReq _ _ g hg hK := ⟨g, Means.grows (fun _ hV => hV) hm.returned hg, hK _⟩
  shutdown _ _ g hg hK := ⟨g, Means.grows (fun _ hV => hV) hm.returned hg, hK _⟩
  returns _ call r _ g hg hK hmem := by
    obtain ⟨hcmd, -, hK⟩ := hK
    refine ⟨_, ?_, hK r⟩
    split
    · rename_i hload
      exact ⟨_, hmem, hcmd, hload.1, rfl, hload.2, rfl⟩
    · exact Means.grows (fun _ hV => hV) hm.returned hg

theorem Loads.move {a : Action} (hm : Move s a s')
    (hauth : ∀ F, (s.shared.fabric.checkFence F).authorized = true → V F) (h : s.Loads V) :
    s'.Loads V := by
  have hobeys := h.obeys.move hm (loading_sound hm hauth)
  have hgrow (inst : Bytes) (bytes : UInt64) (hacked : LoadAcked s.history inst bytes) :
      LoadAcked s'.history inst bytes := by
    obtain ⟨r, hr, hload⟩ := hacked
    exact ⟨r, hm.returned r hr, hload⟩
  have hready := h.ready.imp hgrow
  cases hm with
  | @sendCommand c call slot pend sl hh hsl =>
    refine ⟨hobeys, fun x hx => ?_, hready⟩
    rcases List.mem_cons.mp hx with rfl | hx
    · obtain ⟨g, hg, ⟨hcmd, hvetted, -⟩⟩ := h.obeys.calling hh
      refine ⟨⟨hcmd.type, hcmd.ok, hcmd.a⟩, fun hload => ?_⟩
      obtain ⟨fence, rfl, hcarries⟩ := hvetted hload
      exact ⟨fence, hg, hcarries⟩
    · exact h.sent x hx
  | @locked c sec k hh =>
    refine ⟨hobeys, h.sent, hready.section fun inst bytes hsec => ?_⟩
    subst hsec
    obtain ⟨g, hg, hp⟩ := h.obeys c _ hh
    obtain ⟨rfl, -⟩ : g = .acked inst.str bytes ∧ _ := hp
    exact hgrow _ _ hg
  | enterFabric hh hrec => exact ⟨hobeys, h.sent, hready.wkRegister _⟩
  | down hh hsl => exact ⟨hobeys, h.sent, hready.onWorkerDown _⟩
  | _ => exact ⟨hobeys, h.sent, hready⟩

theorem Initial.loads (h : Initial s) (V : AuthorityFence → Prop) : s.Loads V := by
  refine ⟨h.obeys _ _, ?_, ?_⟩
  · obtain ⟨limits, rng, rfl⟩ := h
    nofun
  · obtain ⟨limits, rng, rfl⟩ := h
    intro inst r hr
    have hr : (∅ : StrMap ResidencyRecord)[inst.str]? = some r := hr
    rw [Std.ExtTreeMap.getElem?_empty] at hr
    cases hr

end Server

end Coordinator

end AdapterFabric
