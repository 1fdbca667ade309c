import AdapterFabric.Coordinator.Exchange

/-!
# AdapterFabric.Coordinator.Provenance

Where the answers to calls, and what is resident on workers, come from when the workers are
processes of the repository.

* `commands_in_order`: a worker handles the commands sent to it in their order, each once.
* `alive_always`: nothing that they or well-behaved clients send ends the coordinator.
* `calls_answered`: a call returns an error of the coordinator, or what the addressed worker made of
  exactly its command.
* `resident_vetted`: of what is resident on a worker, the worker has handled a load with a fence
  that had been authorized.
* `ready_loaded`: a ready residency has one byte, and a worker has loaded it.
-/

namespace AdapterFabric

namespace Coordinator

namespace Deployment

variable {d d' d'' : Deployment} {a : Action}

theorem Steps.sound {d₀ : Deployment} {as : List Action} (h₀ : Initial d₀)
    (h : Run.Steps Step d₀ as d) : d.Sound :=
  h.preserves (P := Sound) (fun hs hd => hd.move (act_move hs)) h₀.sound

/-- What every step of the coordinator keeps holds of it in every run. -/
theorem Steps.server {d₀ : Deployment} {as : List Action} {P : Server → Prop} (h₀ : Initial d₀)
    (h : Run.Steps Step d₀ as d) (hinit : P d₀.server)
    (hmove : ∀ {s s' : Server} {b : Coordinator.Action}, Server.Move s b s' → P s → P s') :
    P d.server := by
  have hboth : d.Sound ∧ P d.server := by
    refine h.preserves (P := fun d : Deployment => d.Sound ∧ P d.server) (fun hs hd => ?_)
      ⟨h₀.sound, hinit⟩
    have hm := act_move hs
    refine ⟨hd.1.move hm, ?_⟩
    rcases hm.refines hd.1 with he | ⟨b, hb, -⟩
    · rw [he]
      exact hd.2
    · exact hmove (Server.act_move hb) hd.2
  exact hboth.2

/-- In every run, a worker that runs has handled a part of the commands sent to it, in the order in
which they were sent and each once, and is what a process that handles them becomes. -/
theorem commands_in_order {d₀ : Deployment} {as : List Action} (h₀ : Initial d₀)
    (h : Run.Steps Step d₀ as d) (c : ℕ) :
    d.handledBy c <+: sentOver d.server.history c ∧
      ∀ w, d.processes c = some (.running w) →
        sentOver d.server.history c = d.handledBy c ++ commands (d.downstream c) ∧
          w = replay w.opts (d.handledBy c) := by
  have hsound := Steps.sound h₀ h
  refine ⟨(hsound.orderly c).prefix_, fun w hw => ?_⟩
  have horderly := hsound.orderly c
  rw [hw] at horderly
  exact ⟨horderly.1.sent, horderly.2⟩

/-! ## Workers and clients stay what they are -/

structure Later (d d' : Deployment) : Prop where
  workers : ∀ c, d.processes c ≠ none → d'.processes c ≠ none
  clients : ∀ c, d.server.handlers c ≠ none → d.processes c = none →
    d'.server.handlers c ≠ none ∧ d'.processes c = none
  issued : d.server.history.issued.length ≤ d'.server.history.issued.length

theorem Later.refl (d : Deployment) : Later d d := ⟨fun _ h => h, fun _ h h' => ⟨h, h'⟩, le_rfl⟩

theorem Later.trans (h : Later d d') (h' : Later d' d'') : Later d d'' := by
  refine ⟨fun c hc => h'.workers c (h.workers c hc), fun c hc hnone => ?_, h.issued.trans h'.issued⟩
  obtain ⟨hc', hnone'⟩ := h.clients c hc hnone
  exact h'.clients c hc' hnone'

/-- The process of one connection goes on, or a connection that is new gets one. -/
theorem Move.processes (hm : Move d a d') : d'.processes = d.processes ∨
    ∃ c p, d'.processes = Function.update d.processes c (some p) ∧
      (d.processes c ≠ none ∨ d.server.handlers c = none) := by
  cases hm with
  | coordinator hpermits hstep => exact .inl rfl
  | @launch c opts server hstep =>
    cases Server.act_move hstep with
    | accept hnew => exact .inr ⟨c, _, rfl, .inr hnew⟩
  | registerLost hp => exact .inr ⟨_, _, rfl, .inl (by simp [hp])⟩
  | registerLong hp => exact .inr ⟨_, _, rfl, .inl (by simp [hp])⟩
  | register hp hsize hstep => exact .inr ⟨_, _, rfl, .inl (by simp [hp])⟩
  | acked hp hx hok => exact .inr ⟨_, _, rfl, .inl (by simp [hp])⟩
  | gaveUp hp hx => exact .inr ⟨_, _, rfl, .inl (by simp [hp])⟩
  | handle hp hx => exact .inr ⟨_, _, rfl, .inl (by simp [hp])⟩
  | exit hp => exact .inr ⟨_, _, rfl, .inl (by simp [hp])⟩

theorem Sound.later (hd : d.Sound) (hm : Move d a d') : Later d d' := by
  have hserver : (∀ c, d.server.handlers c ≠ none → d'.server.handlers c ≠ none) ∧
      d.server.history.issued.length ≤ d'.server.history.issued.length := by
    rcases hm.refines hd with he | ⟨b, hstep, -⟩
    · rw [he]
      exact ⟨fun _ h => h, le_rfl⟩
    · exact ⟨fun _ h => (Server.act_move hstep).accepted h, (Server.act_move hstep).issued_le⟩
  rcases hm.processes with he | ⟨c, p, he, hc⟩
  · refine ⟨fun c h => he ▸ h, fun c h hnone => ⟨hserver.1 c h, he ▸ hnone⟩, hserver.2⟩
  · refine ⟨fun c' h => ?_, fun c' h hnone => ⟨hserver.1 c' h, ?_⟩, hserver.2⟩
    · rw [he]
      by_cases hcc : c' = c
      · simp [hcc]
      · rwa [Function.update_of_ne hcc]
    · have hcc : c' ≠ c := by
        rintro rfl
        exact hc.elim (fun hsome => hsome hnone) fun hnew => h hnew
      rwa [he, Function.update_of_ne hcc]

theorem Steps.later {as : List Action} (h : Run.Steps Step d as d') (hd : d.Sound) :
    Later d d' := by
  induction h with
  | nil d => exact .refl d
  | cons hstep _ ih =>
    have hm := act_move hstep
    exact (hd.later hm).trans (ih (hd.move hm))

/-! ## Calls and their answers -/

/-- The coordinator's ledger is kept: the workers are honest. -/
theorem correlates_of_steps {W : ℕ → Prop} {as : List Action} (h : Run.Steps Step d as d')
    (hd : d.Sound) (hres : d.server.Resolved) (hcorr : Server.Correlates W d.server)
    (hW : ∀ c, W c ↔ d'.processes c ≠ none)
    (hissued : d'.server.history.issued.length < 2 ^ 64) : Server.Correlates W d'.server := by
  induction h with
  | nil d => exact hcorr
  | @cons d t d' a as hstep hrest ih =>
    have hm := act_move hstep
    have ht := hd.move hm
    have hlater : Later d d' := (hd.later hm).trans (Steps.later hrest ht)
    have hroles : Roles W d := by
      refine ⟨fun c hc => (hW c).mpr (hlater.workers c hc), fun c hc hnone hw => ?_⟩
      exact (hW c).mp hw (hlater.clients c hc hnone).2
    have hbound : t.server.history.issued.length < 2 ^ 64 :=
      (Steps.later hrest ht).issued.trans_lt hissued
    rcases hm.refines hd with he | ⟨b, hb, -, hhonest⟩
    · exact ih ht (he ▸ hres) (he ▸ hcorr) hW hissued
    · have hmove := Server.act_move hb
      exact ih ht (hres.move hmove) (hcorr.move hmove hres (hhonest W hroles) hbound) hW hissued

/-- The reply is what a worker has made of the command. -/
def HandledAs (d : Deployment) (conn : ℕ) (cmd reply : Message) : Prop :=
  ∃ x ∈ d.handled, x.conn = conn ∧ x.cmd = cmd ∧ (x.worker.handleCommand cmd).2 = some reply

/-- Every reply is what the worker made of the command. -/
def RepliesHandled (d : Deployment) : Prop :=
  ∀ p ∈ d.server.history.replied, d.HandledAs p.conn p.cmd p.reply

theorem replied_move {s s' : Server} {b : Coordinator.Action} (hm : Server.Move s b s')
    (hreply : ∀ c i frame, b ≠ .reply c i frame) : s'.history.replied = s.history.replied := by
  cases hm with
  | reply hcmd hmsg => exact absurd rfl (hreply _ _ _)
  | _ => rfl

theorem RepliesHandled.move (hm : Move d a d') (h : d.RepliesHandled) : d'.RepliesHandled := by
  cases hm with
  | @coordinator b server hpermits hstep =>
    have hreply : ∀ c i frame, b ≠ .reply c i frame := by
      rintro c i frame rfl
      cases hpermits
    intro p hp
    have hsame : server.history.replied = d.server.history.replied :=
      replied_move (Server.act_move hstep) hreply
    exact h p (hsame ▸ hp)
  | launch hstep =>
    cases Server.act_move hstep with
    | accept hnew => exact h
  | register hp hsize hstep =>
    cases Server.act_move hstep with
    | peer hh => exact h
  | @handle c w x rest delivered hp hx =>
    have hmono (conn : ℕ) (cmd reply : Message) (hold : d.HandledAs conn cmd reply) :
        ((d.handle c w x x.message delivered).taken c rest).HandledAs conn cmd reply := by
      obtain ⟨y, hy, hyr⟩ := hold
      exact ⟨y, List.mem_append_right _ hy, hyr⟩
    have hserver : ((d.handle c w x x.message delivered).taken c rest).server =
        if delivered then ((w.handleCommand x.message).2.map (d.reply c x.message)).getD d.server
        else d.server := rfl
    intro p hp'
    rw [hserver] at hp'
    cases delivered with
    | false => exact hmono _ _ _ (h p hp')
    | true =>
      cases hout : (w.handleCommand x.message).2 with
      | none =>
        rw [hout] at hp'
        exact hmono _ _ _ (h p hp')
      | some m =>
        rw [hout] at hp'
        rcases List.mem_cons.mp hp' with rfl | hp'
        · obtain ⟨cmd, rfl⟩ := command_of_reply hout
          exact ⟨⟨c, w, cmd⟩, List.mem_append_left _ (List.mem_singleton_self _), rfl, rfl, hout⟩
        · exact hmono _ _ _ (h p hp')
  | registerLost hp => exact h
  | registerLong hp => exact h
  | acked hp hx hok => exact h
  | gaveUp hp hx => exact h
  | exit hp => exact h

theorem Initial.repliesHandled (h : Initial d) : d.RepliesHandled := by
  obtain ⟨s, ⟨limits, rng, rfl⟩, rfl⟩ := h
  nofun

section Runs

variable {d₀ : Deployment} {as : List Action}

theorem Steps.correlates (h₀ : Initial d₀) (h : Run.Steps Step d₀ as d)
    (hissued : d.server.history.issued.length < 2 ^ 64) :
    Server.Correlates (fun c => d.processes c ≠ none) d.server := by
  have hsound := h₀.sound
  obtain ⟨s, hs, rfl⟩ := h₀
  exact correlates_of_steps h hsound hs.resolved (hs.correlates _) (fun _ => Iff.rfl) hissued

theorem Steps.returned (h₀ : Initial d₀) (h : Run.Steps Step d₀ as d)
    (hissued : d.server.history.issued.length < 2 ^ 64) {r : Returned}
    (hr : r ∈ d.server.history.returned) : CoordinatorError r.result ∨
      ∃ conn, ⟨conn, r.call.workerId⟩ ∈ d.server.history.tabled ∧
        d.HandledAs conn r.call.command r.result := by
  have hcorr := Steps.correlates h₀ h hissued
  have hreplies := h.preserves (P := RepliesHandled) (fun hs hd => hd.move (act_move hs))
    h₀.repliesHandled
  rcases hcorr.answered r hr with herror | ⟨p, ⟨hp, hcmd, haddr⟩, hresult⟩
  · exact .inl herror
  · refine .inr ⟨p.conn, haddr.1, ?_⟩
    rw [hresult, ← hcmd]
    exact hreplies p hp

theorem Steps.handledBy_nodup (h₀ : Initial d₀) (h : Run.Steps Step d₀ as d)
    (hissued : d.server.history.issued.length < 2 ^ 64) (c : ℕ) : (d.handledBy c).Nodup := by
  have hcorr := Steps.correlates h₀ h hissued
  have hsent : (sentOver d.server.history c).Nodup := by
    refine List.nodup_reverse.mpr ?_
    have hids : ((d.server.history.sent.filter (·.conn = c)).map (·.cmd.reqId)).Nodup :=
      hcorr.ledger.sent.sublist (List.filter_sublist.map _)
    exact .of_map Message.reqId (by rwa [List.map_map])
  exact hsent.sublist ((Steps.sound h₀ h).orderly c).prefix_.sublist

/-- Whatever the clients send and however the coordinator and its workers take their steps, a call
returns an error of the coordinator, or what the addressed worker made of exactly its command; and
no worker handles a command twice. -/
theorem calls_answered (h₀ : Initial d₀) (h : Run.Steps Step d₀ as d)
    (hissued : d.server.history.issued.length < 2 ^ 64) :
    (∀ r ∈ d.server.history.returned, CoordinatorError r.result ∨
      ∃ conn, ⟨conn, r.call.workerId⟩ ∈ d.server.history.tabled ∧
        d.HandledAs conn r.call.command r.result) ∧
    ∀ c, (d.handledBy c).Nodup :=
  ⟨fun _ hr => Steps.returned h₀ h hissued hr, Steps.handledBy_nodup h₀ h hissued⟩

/-! ## What is resident -/

/-- What a worker holds after a command is what it has just loaded, or what it held. -/
theorem resident_handle {w : WorkerService} {cmd : Message} {text : Bytes} {v : Bool × UInt64}
    (hv : (w.handleCommand cmd).1.localResidency[text]? = some v) :
    (cmd.type = .wkLoad ∧ cmd.text = text ∧ v = (true, if cmd.a = 0 then 1 else cmd.a)) ∨
      w.localResidency[text]? = some v := by
  unfold WorkerService.handleCommand at hv
  by_cases hload : cmd.type = .wkLoad
  · rw [if_pos hload] at hv
    rcases Table.of_insert hv with ⟨rfl, rfl⟩ | hv
    · exact .inl ⟨hload, rfl, rfl⟩
    · exact .inr hv
  · rw [if_neg hload] at hv
    by_cases hinvalidate : cmd.type = .wkInvalidate
    · rw [hinvalidate] at hv
      exact .inr (Table.of_erase hv)
    · refine .inr ?_
      split_ifs at hv <;> exact hv

/-- What a worker that has handled promised commands holds: one byte each, of what it loaded. -/
theorem resident_replay {V : AuthorityFence → Prop} (opts : WorkerOptions) (cmds : List Message)
    (hcmds : ∀ cmd ∈ cmds, Promised V cmd) {text : Bytes} {v : Bool × UInt64}
    (hv : (replay opts cmds).localResidency[text]? = some v) :
    v = (true, 1) ∧ ∃ cmd ∈ cmds, cmd.type = .wkLoad ∧ cmd.text = text := by
  induction cmds using List.reverseRecOn with
  | nil =>
    have hv : (∅ : StrMap (Bool × UInt64))[text]? = some v := hv
    rw [Std.ExtTreeMap.getElem?_empty] at hv
    cases hv
  | append_singleton cmds cmd ih =>
    rw [replay_append] at hv
    have hmem : cmd ∈ cmds ++ [cmd] := by simp
    rcases resident_handle hv with ⟨hload, htext, rfl⟩ | hv
    · refine ⟨?_, cmd, hmem, hload, htext⟩
      rw [if_pos (hcmds cmd hmem).a]
    · obtain ⟨hone, cmd', hcmd', hload⟩ :=
        ih (fun cmd hcmd => hcmds cmd (List.mem_append_left _ hcmd)) hv
      exact ⟨hone, cmd', List.mem_append_left _ hcmd', hload⟩

/-- The running worker at the other end of `c` holds `v` for the adapter of the text. -/
def Resident (d : Deployment) (c : ℕ) (text : Bytes) (v : Bool × UInt64) : Prop :=
  ∃ w, d.processes c = some (.running w) ∧ w.localResidency[text]? = some v

/-- The coordinator authorizes the fence. -/
def Vets (d : Deployment) (fence : AuthorityFence) : Prop :=
  (d.server.shared.fabric.checkFence fence).authorized = true

theorem resident_of_loads {V : AuthorityFence → Prop} (hd : d.Sound) (hloads : d.server.Loads V)
    {c : ℕ} {text : Bytes} {v : Bool × UInt64} (h : d.Resident c text v) :
    v = (true, 1) ∧ ∃ cmd ∈ d.handledBy c, cmd.type = .wkLoad ∧ cmd.text = text ∧
      ∃ fence, V fence ∧ CarriesFence cmd fence := by
  obtain ⟨w, hw, hv⟩ := h
  have horderly := hd.orderly c
  rw [hw] at horderly
  obtain ⟨hwaits, hreplay⟩ := horderly
  have hpromised (cmd : Message) (hcmd : cmd ∈ d.handledBy c) : Promised V cmd := by
    have hsent : cmd ∈ sentOver d.server.history c := by
      rw [hwaits.sent]
      exact List.mem_append_left _ hcmd
    obtain ⟨x, hx, -, rfl⟩ := mem_sentOver hsent
    exact hloads.sent x hx
  rw [hreplay] at hv
  obtain ⟨hone, cmd, hcmd, hload, htext⟩ := resident_replay w.opts (d.handledBy c) hpromised hv
  exact ⟨hone, cmd, hcmd, hload, htext, (hpromised cmd hcmd).vetted hload⟩

/-- Along every run, what a worker holds takes one byte, and the worker has handled a load of it
with a fence that the coordinator had authorized. -/
theorem resident_vetted (h₀ : Initial d₀) {path pre post : List (Action × Deployment)}
    {x : Action × Deployment} (h : Run.Each Step d₀ path) (hpath : path = pre ++ x :: post) {c : ℕ}
    {text : Bytes} {v : Bool × UInt64} (hres : x.2.Resident c text v) :
    v = (true, 1) ∧ ∃ cmd ∈ x.2.handledBy c, cmd.type = .wkLoad ∧ cmd.text = text ∧
      ∃ fence, CarriesFence cmd fence ∧ ∃ u ∈ d₀ :: pre.map Prod.snd, u.Vets fence := by
  have hloads : d₀.server.Loads fun _ => False := by
    obtain ⟨s, hs, rfl⟩ := h₀
    exact hs.loads _
  have hcollected := h.collects (I := fun V d => d.Sound ∧ d.server.Loads V) (F := Vets)
    (fun {V V' s a t} hstep hV hvets hI => ?_) ⟨h₀.sound, hloads⟩ hpath
  · obtain ⟨hone, cmd, hcmd, hload, htext, fence, hfence, hcarries⟩ :=
      resident_of_loads hcollected.1 hcollected.2 hres
    exact ⟨hone, cmd, hcmd, hload, htext, fence, hcarries, hfence.resolve_left id⟩
  · have hm := act_move hstep
    have hsame := hI.2.imp hV
    refine ⟨hI.1.move hm, ?_⟩
    rcases hm.refines hI.1 with he | ⟨b, hb, -⟩
    · rw [he]
      exact hsame
    · exact hsame.move (Server.act_move hb) hvets

theorem Steps.acked (h₀ : Initial d₀) (h : Run.Steps Step d₀ as d)
    (hissued : d.server.history.issued.length < 2 ^ 64) {inst : Bytes} {bytes : UInt64}
    (hacked : LoadAcked d.server.history inst bytes) :
    bytes = 1 ∧ ∃ x ∈ d.handled, x.cmd.type = .wkLoad ∧ x.cmd.text2 = inst := by
  obtain ⟨ret, hret, hcmd, hload, hinst, hok, hbytes⟩ := hacked
  rcases Steps.returned h₀ h hissued hret with herror | ⟨conn, -, x, hx, -, hxcmd, hreply⟩
  · rcases herror with he | he | he <;> (rw [he] at hok; cases hok)
  · have htype : ret.call.command.type = .wkLoad := hload
    have hzero : ret.call.command.a = 0 := hcmd.a
    refine ⟨?_, x, hx, hxcmd ▸ htype, hxcmd ▸ hinst⟩
    unfold WorkerService.handleCommand at hreply
    rw [if_pos htype] at hreply
    rw [← hbytes, ← Option.some.inj hreply]
    show (if ret.call.command.a = 0 then 1 else ret.call.command.a) = 1
    rw [if_pos hzero]

/-- A residency that is ready has been loaded by a worker, and has one byte, whatever its adapter
declares. -/
theorem ready_loaded (h₀ : Initial d₀) (h : Run.Steps Step d₀ as d)
    (hissued : d.server.history.issued.length < 2 ^ 64) {inst : AdapterInstanceId}
    {r : ResidencyRecord} (hr : d.server.shared.fabric.residency inst = some r)
    (hready : r.ready = true) :
    r.bytes = 1 ∧ ∃ x ∈ d.handled, x.cmd.type = .wkLoad ∧ x.cmd.text2 = inst.str :=
  Steps.acked h₀ h hissued ((Steps.sound h₀ h).loads.ready inst r hr hready)

end Runs

/-! ### A load -/

open Fabric (sampleAdapter sampleWorker sampleFence)

def coordinatorAlone : Deployment := { server := Server.start }

theorem coordinatorAlone_initial : Initial coordinatorAlone := ⟨_, Server.start_initial, rfl⟩

def workerOptions : WorkerOptions := { id := sampleWorker.id }

/-- The fence of the process that `workerOptions` starts. -/
def processFence : AuthorityFence :=
  { sampleFence with boot := (WorkerService.ofOptions workerOptions).boot }

def processLoad : Message :=
  { type := .ctlLoad, text2 := sampleWorker.id.str, payload := encodeFence processFence }

/-- A worker registers, and a client registers an adapter and loads it. -/
def loadsOnce : List Action :=
  [.launch 0 workerOptions, .register 0 true] ++
    [.read 0, .advance 0, .advance 0, .send 0 true].map .coordinator ++ [.receive 0 true] ++
    [.accept 1, .peer 1 (encodeMessage adapterRequest), .read 1, .advance 1, .send 1 true,
      .peer 1 (encodeMessage processLoad), .read 1, .advance 1, .advance 1, .advance 1, .advance 1,
      .advance 1, .advance 1, .send 1 true].map .coordinator ++ [.receive 0 true] ++
    [.read 0, .advance 0, .advance 0, .advance 1, .advance 1, .advance 1, .advance 1,
      .send 1 true].map .coordinator

/-- What the only process of a deployment holds for the sample adapter. -/
def held (d : Deployment) : Option (Bool × UInt64) :=
  match d.processes 0 with
  | some (.running w) => w.localResidency[sampleAdapter.id.str]?
  | _ => none

/-- The instance that the load makes. -/
def processInstance : AdapterInstanceId := Fabric.drawn .instanceInit

theorem resident_of_held {d : Deployment} {v : Bool × UInt64} (h : d.held = some v) :
    d.Resident 0 sampleAdapter.id.str v := by
  unfold held at h
  split at h
  · rename_i w hw
    exact ⟨w, hw, h⟩
  · cases h

theorem loadsOnce_runs : ∃ d : Deployment, Run.Steps Step coordinatorAlone loadsOnce d ∧
    d.held = some (true, 1) ∧ d.server.history.returned.map (·.result.ok) = [true] ∧
    d.server.history.issued.length < 2 ^ 64 ∧
    (d.server.shared.fabric.residency processInstance).map (·.ready) = some true := by
  obtain ⟨d, hrun, hd⟩ : ∃ d : Deployment, Run.tryExec act loadsOnce coordinatorAlone = some d ∧
      (d.held = some (true, 1) ∧ d.server.history.returned.map (·.result.ok) = [true] ∧
        d.server.history.issued.length < 2 ^ 64 ∧
        (d.server.shared.fabric.residency processInstance).map (·.ready) = some true) :=
    Run.exists_tryExec (by decide +kernel)
  exact ⟨d, .of_tryExec hrun, hd⟩

theorem commands_in_order_sample : ∃ d w, Run.Steps Step coordinatorAlone loadsOnce d ∧
    d.processes 0 = some (.running w) ∧ w = replay w.opts (d.handledBy 0) := by
  obtain ⟨d, hrun, hheld, -⟩ := loadsOnce_runs
  obtain ⟨w, hw, -⟩ := resident_of_held hheld
  exact ⟨d, w, hrun, hw, ((commands_in_order coordinatorAlone_initial hrun 0).2 w hw).2⟩

theorem calls_answered_sample : ∃ d r, Run.Steps Step coordinatorAlone loadsOnce d ∧
    r ∈ d.server.history.returned ∧
    ∃ conn, d.HandledAs conn r.call.command r.result := by
  obtain ⟨d, hrun, -, hok, hissued, -⟩ := loadsOnce_runs
  obtain ⟨r, hr, hrok⟩ : ∃ r ∈ d.server.history.returned, r.result.ok = true :=
    List.mem_map.mp (hok ▸ List.mem_singleton_self true)
  refine ⟨d, r, hrun, hr, ?_⟩
  rcases (calls_answered coordinatorAlone_initial hrun hissued).1 r hr with
    (he | he | he) | ⟨conn, -, hhandled⟩
  · cases (congrArg Message.ok he).symm.trans hrok
  · cases (congrArg Message.ok he).symm.trans hrok
  · cases (congrArg Message.ok he).symm.trans hrok
  · exact ⟨conn, hhandled⟩

theorem resident_vetted_sample : ∃ d cmd fence, Run.Steps Step coordinatorAlone loadsOnce d ∧
    d.Resident 0 sampleAdapter.id.str (true, 1) ∧ cmd ∈ d.handledBy 0 ∧ CarriesFence cmd fence ∧
    ∃ u : Deployment, u.Vets fence := by
  obtain ⟨d, hrun, hheld, -⟩ := loadsOnce_runs
  have hres := resident_of_held hheld
  obtain ⟨path, hpath, -, hlast⟩ := hrun.exists_path
  obtain ⟨a, hmem⟩ := hlast (by decide)
  obtain ⟨pre, post, hsplit⟩ := List.append_of_mem hmem
  obtain ⟨-, cmd, hcmd, -, -, fence, hcarries, u, -, hvets⟩ :=
    resident_vetted coordinatorAlone_initial hpath hsplit hres
  exact ⟨d, cmd, fence, hrun, hres, hcmd, hcarries, u, hvets⟩

theorem ready_loaded_sample : ∃ d r, Run.Steps Step coordinatorAlone loadsOnce d ∧
    d.server.shared.fabric.residency processInstance = some r ∧ r.bytes = 1 := by
  obtain ⟨d, hrun, -, -, hissued, hready⟩ := loadsOnce_runs
  obtain ⟨r, hr, hrready⟩ := Option.map_eq_some_iff.mp hready
  exact ⟨d, r, hrun, hr, (ready_loaded coordinatorAlone_initial hrun hissued hr hrready).1⟩

end Deployment

end Coordinator

end AdapterFabric
