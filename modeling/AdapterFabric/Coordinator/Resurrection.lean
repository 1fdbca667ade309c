import AdapterFabric.Coordinator.LiveWorker
import AdapterFabric.Fabric.Currency

/-!
# AdapterFabric.Coordinator.Resurrection

What becomes of a bound fence once the connection of its worker has ended.

* `not_resurrected`: it stays unauthorized as long as its worker does not register with the boot of
  the fence before the fence has fallen behind.
* `reregistered_authorized`: a worker that registers with that boot right away brings every
  authorized fence back, since nothing remembers the boots of dead workers.
-/

namespace AdapterFabric

namespace Coordinator

open Fabric (Later)

/-- The worker of `F` is not connected under the boot of `F`. -/
def Gone (F : AuthorityFence) (f : Fabric) : Prop :=
  ∀ w, f.worker F.worker = some w → w.connected = true → w.boot ≠ F.boot

section Gone

variable {F : AuthorityFence} {f : Fabric}

theorem Gone.not_authorized (h : Gone F f) : (f.checkFence F).authorized = false := by
  rw [← Bool.not_eq_true, Fabric.checkFence_authorized]
  rintro ⟨d, w, hc⟩
  exact h w hc.worker hc.connected hc.boot.symm

theorem Gone.control {ops : List Fabric.Op} (hops : ∀ op ∈ ops, Section.IsControl op)
    (h : Gone F f) : Gone F (Fabric.run ops f) := by
  refine Run.exec_preserves (P := Gone F) (fun op ho g hg => ?_) h
  intro w hw
  unfold Fabric.worker at hw
  rw [workers_frame (hops op ho)] at hw
  exact hg w hw

theorem worker_onWorkerDown (f : Fabric) (id id' : WorkerId) :
    (f.onWorkerDown id).worker id' =
      if id = id' then (f.worker id').map fun w => { w with connected := false }
      else f.worker id' := by
  show (f.workers.modify id.str fun w => { w with connected := false })[id'.str]? = _
  rw [Table.get_modify]
  exact if_congr Id.str_eq_iff rfl rfl

theorem gone_of_down (F : AuthorityFence) (f : Fabric) : Gone F (f.onWorkerDown F.worker) := by
  intro w hw hconnected
  rw [worker_onWorkerDown, if_pos rfl] at hw
  obtain ⟨w', _, rfl⟩ := Option.map_eq_some_iff.mp hw
  cases hconnected

theorem Gone.onWorkerDown (h : Gone F f) (id : WorkerId) : Gone F (f.onWorkerDown id) := by
  by_cases hid : id = F.worker
  · rw [hid]
    exact gone_of_down F f
  · intro w hw
    rw [worker_onWorkerDown, if_neg hid] at hw
    exact h w hw

theorem Gone.wkRegister (h : Gone F f) {msg : Message}
    (hfresh : mustParse msg.text = .ok F.worker → mustParse msg.text2 ≠ .ok F.boot) :
    Gone F (wkRegister f msg) := by
  rcases wkRegister_cases f msg with he | ⟨rec, hid, hboot, _, he⟩
  · rwa [he]
  rw [he]
  intro w hw hconnected
  have hw : (f.workers.insert rec.id.str rec)[F.worker.str]? = some w := hw
  rcases Table.of_insert hw with ⟨hkey, rfl⟩ | hw
  · rw [Id.str_inj hkey] at hid
    intro hsame
    exact hfresh hid (by rw [hboot, hsame])
  · exact h w hw hconnected

end Gone

/-! ## Runs after a death -/

/-- Some run from the start binds `F` and later ends the connection of its worker, which leads to
`c`. -/
def Died (F : AuthorityFence) (c : Config) : Prop :=
  ∃ c₀ ls₁ c₁ i check c₂ ls₂ c₃, Initial c₀ ∧ Steps c₀ ls₁ c₁ ∧
    Step c₁ (.effect i (.locked (.bind F)) (.ok check)) c₂ ∧ check.authorized = true ∧
    Steps c₂ ls₂ c₃ ∧ Step c₃ (.event (.down F.worker)) c

/-- When the worker of `F` registers with the boot of `F`, then `F` has fallen behind. -/
def FreshBoot (F : AuthorityFence) (c : Config) : Label → Prop
  | .event (.register msg) =>
    mustParse msg.text = .ok F.worker → mustParse msg.text2 = .ok F.boot →
      c.shared.fabric.Behind F
  | _ => True

/-- Since `F` was authorized in `f₀`, generations only moved forward, and its worker is gone or `F`
has fallen behind. -/
structure Dead (F : AuthorityFence) (f₀ f : Fabric) : Prop where
  bounded : f.GenerationsBounded
  later : Later f₀ f
  gone_or_behind : Gone F f ∨ f.Behind F

section Dead

variable {F : AuthorityFence} {f₀ : Fabric}

theorem Dead.not_authorized {f : Fabric} (h : Dead F f₀ f) : (f.checkFence F).authorized = false :=
  h.gone_or_behind.elim Gone.not_authorized Fabric.Behind.not_authorized

theorem forward_steps {c c' : Config} {ls : List Label} (h : Steps c ls c')
    (hb : c.shared.fabric.GenerationsBounded) :
    c'.shared.fabric.GenerationsBounded ∧ Later c.shared.fabric c'.shared.fabric := by
  obtain ⟨ops, hops, he⟩ := Steps.refines h
  rw [he]
  exact Fabric.forward_run (fun op ho => (hops op ho).2) hb

theorem Dead.step (hcurrent : (f₀.checkFence F).authorized = true) {c c' : Config} {l : Label}
    (hfresh : FreshBoot F c l) (hstep : Step c l c') (h : Dead F f₀ c.shared.fabric) :
    Dead F f₀ c'.shared.fabric := by
  obtain ⟨hbounded, hlater⟩ := forward_steps (.single hstep) h.bounded
  refine ⟨hbounded, h.later.trans hlater, ?_⟩
  have hbehind (hb : c.shared.fabric.Behind F) : c'.shared.fabric.Behind F :=
    Fabric.Behind.later h.later hlater hcurrent hb
  rcases h.gone_or_behind with hgone | hb
  · rcases Step.fabric_cases hstep with ⟨ops, hops, he⟩ | ⟨msg, rfl, he⟩ | ⟨id, _, he⟩
    · exact .inl (he ▸ hgone.control hops)
    · by_cases hsame : mustParse msg.text = .ok F.worker ∧ mustParse msg.text2 = .ok F.boot
      · exact .inr (hbehind (hfresh hsame.1 hsame.2))
      · exact .inl (he ▸ hgone.wkRegister fun hid hboot => hsame ⟨hid, hboot⟩)
    · exact .inl (he ▸ hgone.onWorkerDown id)
  · exact .inr (hbehind hb)

end Dead

theorem Died.dead {F : AuthorityFence} {c : Config} (h : Died F c) :
    ∃ f₀ : Fabric, (f₀.checkFence F).authorized = true ∧ Dead F f₀ c.shared.fabric := by
  obtain ⟨c₀, ls₁, c₁, i, check, c₂, ls₂, c₃, h₀, h₁, hbind, hauth, h₂, hdown⟩ := h
  have hcurrent : (c₁.shared.fabric.checkFence F).authorized = true := by
    cases hbind with
    | effect _ hexec =>
      rw [Fabric.bindAuthority_ok (congrArg Prod.fst hexec)]
      exact hauth
  obtain ⟨hbounded, _⟩ := forward_steps h₁ h₀.fresh.generationsBounded
  obtain ⟨hbounded', hlater⟩ := forward_steps (.cons hbind (h₂.append (.single hdown))) hbounded
  refine ⟨_, hcurrent, hbounded', hlater, .inl ?_⟩
  cases hdown with
  | event henv => exact henv ▸ gone_of_down F c₃.shared.fabric

/-- After the death of its worker, a fence is not authorized in any run in which the worker brings a
fresh boot whenever it registers before the fence has fallen behind. -/
theorem not_resurrected {F : AuthorityFence} {c c' : Config} {ls : List Label} (hdied : Died F c)
    (h : Run.Steps (fun c l c' => FreshBoot F c l ∧ Step c l c') c ls c') :
    (c'.shared.fabric.checkFence F).authorized = false := by
  obtain ⟨f₀, hcurrent, hdead⟩ := hdied.dead
  exact (h.preserves (P := fun c => Dead F f₀ c.shared.fabric)
    (fun hstep hd => hd.step hcurrent hstep.1 hstep.2) hdead).not_authorized

/-! ## Registering with the boot of a dead worker -/

/-- A worker that registers with the boot of an authorized fence right after its death brings the
fence back. -/
theorem reregistered_authorized {f : Fabric} {F : AuthorityFence} {msg : Message}
    {rec : WorkerRecord} (h : (f.checkFence F).authorized = true)
    (hrec : parseRegistration f.epoch msg = .ok rec) (hid : rec.id = F.worker)
    (hboot : rec.boot = F.boot) :
    ((wkRegister (f.onWorkerDown F.worker) msg).checkFence F).authorized = true := by
  obtain ⟨d, w, hc⟩ := Fabric.checkFence_authorized.mp h
  have hstate : wkRegister (f.onWorkerDown F.worker) msg =
      ((f.onWorkerDown F.worker).registerWorker rec).onWorkerRestart rec.id rec.boot := by
    unfold wkRegister
    rw [show parseRegistration (f.onWorkerDown F.worker).epoch msg = .ok rec from hrec]
  rw [hstate]
  refine Fabric.checkFence_authorized.mpr ⟨d, rec, hc.congr rfl rfl ?_ ?_ hboot.symm ?_ ?_⟩
  · show ((f.onWorkerDown F.worker).workers.insert rec.id.str rec)[F.worker.str]? = some rec
    rw [Table.get_insert, if_pos (by rw [hid])]
  · exact (parseRegistration_ok hrec).2.2
  · intro a ha
    exact Fabric.onWorkerDown_attempt_some (Fabric.onWorkerRestart_attempt_some ha)
  · exact (Fabric.onWorkerRestart_fences _ _ _ _).trans (Fabric.onWorkerDown_fences f _ _)

/-- A thread that is about to bind `F` does so, and the worker of `F` dies right after. -/
theorem died_of_pending {c₀ c : Config} {ls : List Label} (h₀ : Initial c₀) (h : Steps c₀ ls c)
    {i : ℕ} {F : AuthorityFence} {k : Except Error AuthorityCheck → Interleave.Prog _ _ Message}
    (hthread : c.threads i = some (.perform (.locked (.bind F)) k)) {check : AuthorityCheck}
    (hbind : (c.shared.fabric.bindAuthority F.adapter F).1 = .ok check)
    (hauth : check.authorized = true) :
    ∃ c', Died F c' ∧
      c'.shared.fabric = (c.shared.fabric.bindAuthority F.adapter F).2.onWorkerDown F.worker := by
  have hexec : exec c.shared (.locked (.bind F)) (.ok check)
      { c.shared with fabric := (c.shared.fabric.bindAuthority F.adapter F).2 } :=
    Prod.ext hbind rfl
  have hstep := Interleave.Step.effect (S := system) hthread hexec
  exact ⟨_, ⟨c₀, ls, c, i, check, _, [], _, h₀, h, hstep, hauth, .nil _, .event rfl⟩, rfl⟩

/-! ### A run in which the worker of the bound fence dies -/

open Fabric (sampleFence)

/-- Is the effect the section that binds `F`? -/
def binds (F : AuthorityFence) : Effect → Bool
  | .locked (.bind fence) => fence = F
  | _ => false

theorem binds_iff {F : AuthorityFence} {e : Effect} : binds F e = true ↔ e = .locked (.bind F) := by
  constructor
  · intro h
    unfold binds at h
    split at h
    · rw [of_decide_eq_true h]
    · cases h
  · rintro rfl
    exact decide_eq_true rfl

/-- The sample activation, about to bind its fence. -/
def pendingState : Shared := (serve sampleAck 3 activateRequest loadedState).2

def diedFabric : Fabric :=
  (pendingState.fabric.bindAuthority sampleFence.adapter sampleFence).2.onWorkerDown
    sampleFence.worker

theorem died_sample : ∃ c, Died sampleFence c ∧ c.shared.fabric = diedFabric := by
  obtain ⟨c₀, ls, c, h₀, hrun, hshared, hthread, _⟩ :=
    reaches_loaded.request_thread sampleAck 3 activateRequest
  have hshared : c.shared = pendingState := hshared
  have hnext : (serve sampleAck 3 activateRequest loadedState).1.performs (binds sampleFence) =
    true := by decide +kernel
  obtain ⟨e, k, hp, he⟩ := Interleave.Prog.performs_iff.mp hnext
  obtain rfl := binds_iff.mp he
  rw [hp] at hthread
  have hbind : (c.shared.fabric.bindAuthority sampleFence.adapter sampleFence).1 =
      .ok ⟨.authorized, ascii "fence current"⟩ := by
    rw [hshared]
    decide +kernel
  obtain ⟨c', hdied, hfabric⟩ := died_of_pending h₀ hrun hthread hbind rfl
  rw [hshared] at hfabric
  exact ⟨c', hdied, hfabric⟩

/-- The registration of the same worker with a new boot. -/
def freshRegistration : Message :=
  { workerRegistration with text2 := (⟨.ofBytes [9]⟩ : WorkerBootId).str }

theorem not_resurrected_sample :
    ((wkRegister diedFabric freshRegistration).checkFence sampleFence).authorized = false := by
  obtain ⟨c, hdied, hfabric⟩ := died_sample
  have hfresh : FreshBoot sampleFence c (.event (.register freshRegistration)) := by
    intro _ hboot
    exact absurd hboot (by decide +kernel)
  have h := not_resurrected hdied (.single ⟨hfresh, .event rfl⟩)
  rwa [hfabric] at h

/-- The same boot registers after the death, and the bound fence of the dead worker is authorized
again. -/
theorem not_resurrected_counterexample :
    ∃ c c', Died sampleFence c ∧ Steps c [.event (.register workerRegistration)] c' ∧
      (c'.shared.fabric.checkFence sampleFence).authorized = true := by
  obtain ⟨c, hdied, hfabric⟩ := died_sample
  refine ⟨c, _, hdied, .single (.event rfl), ?_⟩
  show ((wkRegister c.shared.fabric workerRegistration).checkFence sampleFence).authorized = true
  rw [hfabric]
  decide +kernel

end Coordinator

end AdapterFabric
