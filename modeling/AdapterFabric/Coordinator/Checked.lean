import AdapterFabric.Coordinator.Discipline
import AdapterFabric.Coordinator.Forwarding
import AdapterFabric.Coordinator.Lifecycle
import AdapterFabric.Fabric.Staleness

/-!
# AdapterFabric.Coordinator.Checked

What has been checked before the command of a request is sent, and what of it still holds then.

* `Serves.move`: a request goes on keeping to a rule.
* `gated_processControl`: a load or an activation forwards nothing until its fence is authorized.
* `lockless_processControl`: a migration enters no section, so it checks nothing.
* `forwards_checked_iff`: a schedule sends nothing unchecked and nothing stale exactly when it sends
  nothing for a migration and finds the fence up to date at each send.
-/

namespace AdapterFabric

namespace Coordinator

open Interleave

/-! ## One request -/

/-- The handler of a request that keeps to the rule, or that is over. -/
def Handler.Serves (Φ : Rule Unit) : Handler → Prop
  | reading none => True
  | returned none => True
  | serving p => Keeps Φ () p
  | calling call _ =>
    Φ (.forward call.reqId call.workerId call.fwd) (fun r g => Keeps Φ g (call.k r)) ()
  | _ => False

namespace Server

def Serves (Φ : Rule Unit) (c : ℕ) (s : Server) : Prop := ∃ h, s.handlers c = some h ∧ h.Serves Φ

/-- The effects that are not sections lead on, whatever their results are. -/
structure Passes (Φ : Rule Unit) : Prop where
  nextReq : ∀ K n, Φ .nextReq K () → K n ()
  shutdown : ∀ K, Φ .shutdown K () → K () ()
  forward : ∀ n workerId fwd K r, Φ (.forward n workerId fwd) K () → K r ()

theorem Serves.move {Φ : Rule Unit} (hΦ : Passes Φ) {s s' : Server} {c : ℕ} {a : Action}
    (hm : Move s a s') (ha : a ≠ .read c)
    (hlocked : ∀ sec k, a = .advance c →
      s.handlers c = some (.serving (.perform (.locked sec) k)) →
      Φ (.locked sec) (fun r g => Keeps Φ g (k r)) () → Keeps Φ () (k (sec.run s.shared).1))
    (h : s.Serves Φ c) : s'.Serves Φ c := by
  obtain ⟨hd, hc, hf⟩ := h
  by_cases hconn : c = a.conn
  · subst hconn
    have hhd {hd' : Handler} (hh : s.handlers a.conn = some hd') : hd'.Serves Φ :=
      Option.some.inj (hc.symm.trans hh) ▸ hf
    cases hm with
    | accept hnew => cases hc.symm.trans hnew
    | peer hh => exact ⟨hd, hc, hf⟩
    | reply hcmd hmsg => exact ⟨hd, hc, hf⟩
    | undecodable hh _ _ | register hh _ _ _ _ _ | registerThrew hh _ | readReply hh _ _ _ _
    | readIgnored hh _ _ _ _ | readRequest hh _ _ _ => exact absurd rfl ha
    | hangup hh | answer hh | answerLost hh => exact ⟨_, goto_self .., trivial⟩
    | locked hh => exact ⟨_, goto_self .., hlocked _ _ rfl hh (hhd hh)⟩
    | nextReq hh => exact ⟨_, goto_self .., hΦ.nextReq _ _ (hhd hh)⟩
    | shutdown hh => exact ⟨_, goto_self .., hΦ.shutdown _ (hhd hh)⟩
    | call hh =>
      have hforward := hhd hh
      exact ⟨_, goto_self .., hforward⟩
    | check hh _ _ | insert hh | sendCommand hh _ | sendLost hh | wake hh _ _ =>
      have hcall := hhd hh
      exact ⟨_, goto_self .., hcall⟩
    | checkFailed hh | unsend hh | erase hh =>
      exact ⟨_, goto_self .., hΦ.forward _ _ _ _ _ (hhd hh)⟩
    | hangupWorker hh | ack hh | enterSlot hh | enterFabric hh _ | enterThrew hh | find hh _
    | findNone hh | settle hh | close hh | sweep hh | down hh _ => exact (hhd hh).elim
  · exact ⟨hd, (hm.handlers hconn).trans hc, hf⟩

end Server

/-- Until the fence is authorized, nothing is forwarded. -/
def gating (fence : AuthorityFence) : Rule Unit
  | .locked (.precheck F), K, g => ∀ r, (F = fence → ¬ r.authorized = true) → K r g
  | .locked _, K, g => ∀ r, K r g
  | .nextReq, K, g => ∀ n, K n g
  | .forward _ _ _, _, _ => False
  | .shutdown, K, g => ∀ r, K r g

/-- No section is entered. -/
def lockless : Rule Unit
  | .locked _, _, _ => False
  | .nextReq, K, g => ∀ n, K n g
  | .forward _ _ _, K, g => ∀ r, K r g
  | .shutdown, K, g => ∀ r, K r g

theorem gating_passes (fence : AuthorityFence) : Server.Passes (gating fence) :=
  ⟨fun _ n h => h n, fun _ h => h (), fun _ _ _ _ _ h => h.elim⟩

theorem lockless_passes : Server.Passes lockless :=
  ⟨fun _ n h => h n, fun _ h => h (), fun _ _ _ _ r h => h r⟩

section Requests

variable {req : Message} {fence : AuthorityFence}

namespace Ctl

/-- A handler that checks its fence first goes on behind the gate only where the check fails. -/
theorem gated_precheck (hfence : decodeFence req.payload = .ok fence)
    {k : AuthorityFence → AuthorityCheck → Ctl Message}
    (hk : ∀ pre, ¬ pre.authorized = true → wp (gating fence) (k fence pre) (fun _ _ => True) ()) :
    wp (gating fence)
      (orThrow (decodeFence req.payload) >>= fun F => locked (.precheck F) >>= fun pre => k F pre)
      (fun _ _ => True) () := by
  refine wp_orThrow_bind (fun F hF => ?_) fun e _ => trivial
  obtain rfl : F = fence := Except.ok.inj (hF.symm.trans hfence)
  rw [wp_locked_bind]
  exact fun pre hpre => hk pre (hpre rfl)

theorem gated_load (hfence : decodeFence req.payload = .ok fence) :
    wp (gating fence) (load req) (fun _ _ => True) () := by
  unfold load
  refine gated_precheck hfence fun pre hpre => ?_
  exact wp_ite (fun _ => trivial) fun hauth => absurd hpre hauth

theorem gated_activate (hfence : decodeFence req.payload = .ok fence) :
    wp (gating fence) (activate req) (fun _ _ => True) () := by
  unfold activate
  refine gated_precheck hfence fun pre hpre => ?_
  exact wp_ite (fun _ => trivial) fun hauth => absurd hpre hauth

theorem lockless_migrate : wp lockless (migrate req) (fun _ _ => True) () := by
  unfold migrate
  refine wp_orThrow_bind (fun F _ => ?_) fun e _ => trivial
  rw [wp_forward_bind]
  exact fun n ack => trivial

end Ctl

/-- What the handler keeps to, `process_control` does, which only turns its error into an answer. -/
theorem keeps_of_dispatch {Φ : Rule Unit}
    (hmono : ∀ e (K K' : e.Res → Unit → Prop) g, (∀ r g, K r g → K' r g) → Φ e K g → Φ e K' g)
    (h : Ctl.wp Φ (Ctl.dispatch req) (fun _ _ => True) ()) : Keeps Φ () (processControl req) := by
  unfold Keeps processControl
  rw [Prog.wp_bind]
  refine Prog.wp_mono hmono (fun r g _ => ?_) h
  cases r with
  | ok out => trivial
  | error e => trivial

theorem gating_mono (e : Effect) (K K' : e.Res → Unit → Prop) (g : Unit)
    (hK : ∀ r g, K r g → K' r g) (h : gating fence e K g) : gating fence e K' g := by
  cases e with
  | locked sec =>
    cases sec with
    | precheck F => exact fun r hr => hK r _ (h r hr)
    | _ => exact fun r => hK r _ (h r)
  | nextReq => exact fun n => hK n _ (h n)
  | forward reqId workerId fwd => exact h
  | shutdown => exact fun r => hK r _ (h r)

theorem lockless_mono (e : Effect) (K K' : e.Res → Unit → Prop) (g : Unit)
    (hK : ∀ r g, K r g → K' r g) (h : lockless e K g) : lockless e K' g := by
  cases e with
  | locked sec => exact h
  | nextReq => exact fun n => hK n _ (h n)
  | forward reqId workerId fwd => exact fun r => hK r _ (h r)
  | shutdown => exact fun r => hK r _ (h r)

theorem gated_processControl (h : req.type = .ctlLoad ∨ req.type = .ctlActivate)
    (hfence : decodeFence req.payload = .ok fence) :
    Keeps (gating fence) () (processControl req) := by
  refine keeps_of_dispatch gating_mono ?_
  rcases h with h | h
  · rw [Ctl.dispatch_load h]
    exact Ctl.gated_load hfence
  · rw [Ctl.dispatch_activate h]
    exact Ctl.gated_activate hfence

theorem lockless_processControl (h : req.type = .ctlMigrate) :
    Keeps lockless () (processControl req) := by
  refine keeps_of_dispatch lockless_mono ?_
  rw [Ctl.dispatch_migrate h]
  exact Ctl.lockless_migrate

end Requests

namespace Server

/-! ## Checks and sends -/

/-- A run from the start has just read `req` on `c`. -/
structure Reads (s : Server) (c : ℕ) (req : Message) : Prop where
  run : ∃ s₀ as s₁, Initial s₀ ∧ Run.Steps Step s₀ as s₁ ∧ Step s₁ (.read c) s
  handler : s.handlers c = some (.serving (processControl req))

/-- The handler of `c` asks `check_fence` about the fence, which authorizes it. -/
def Checks (c : ℕ) (fence : AuthorityFence) (s : Server) (a : Action) (_ : Server) : Prop :=
  a = .advance c ∧
    (∃ k, s.handlers c = some (.serving (.perform (.locked (.precheck fence)) k))) ∧
    (s.shared.fabric.checkFence fence).authorized = true

/-- The step sends a command of the request that `c` serves, and the command carries the fence. -/
def Forwards (c : ℕ) (fence : AuthorityFence) (s : Server) (a : Action) (_ : Server) : Prop :=
  ∃ sl cmd, Sends c sl cmd s a ∧ cmd.payload = encodeFence fence

/-- The operations that a step performs on the Fabric. -/
def ops (s : Server) : Action → List Fabric.Op
  | .advance c =>
    match s.handlers c with
    | some (.serving (.perform (.locked sec) _)) => sec.ops s.shared
    | some (.registering msg _) => registerOps s.shared.fabric msg
    | some (.downing slot) => ((s.slots slot).map fun sl => .onWorkerDown sl.id).toList
    | _ => []
  | _ => []

section Steps

variable {s s' : Server} {c : ℕ} {fence : AuthorityFence} {a : Action}

/-- A step performs its operations, or none of them when it ends the process. -/
theorem Move.fabric_run (hm : Move s a s') :
    ∃ ops, (∀ op ∈ ops, op ∈ s.ops a) ∧ s'.shared.fabric = Fabric.run ops s.shared.fabric := by
  cases hm with
  | @locked c sec k hh =>
    refine ⟨sec.ops s.shared, fun op ho => ?_, sec.run_refines s.shared⟩
    simpa only [ops, hh] using ho
  | @enterFabric c msg slot rec hh hrec =>
    refine ⟨registerOps s.shared.fabric msg, fun op ho => ?_, wkRegister_eq_run _ msg⟩
    simpa only [ops, hh] using ho
  | @down c slot sl hh hsl =>
    refine ⟨[.onWorkerDown sl.id], fun op ho => ?_, rfl⟩
    simpa only [ops, hh, hsl, Option.map_some, Option.toList_some] using ho
  | _ => exact ⟨[], by simp, rfl⟩

theorem ops_not_recover : ∀ op ∈ s.ops a, op.isRecover = false := by
  intro op ho
  unfold ops at ho
  split at ho
  · split at ho
    · rename_i sec k _
      exact (sec.ops_isControl s.shared op ho).keyed.2
    · unfold registerOps at ho
      split at ho
      · cases ho
      · rcases List.mem_pair.mp ho with rfl | rfl <;> rfl
    · obtain ⟨sl, _, rfl⟩ := Option.map_eq_some_iff.mp (Option.mem_toList.mp ho)
      rfl
    · cases ho
  · cases ho

theorem allOne_step (hs : Step s a s') (h : s.shared.fabric.AllOne) :
    s'.shared.fabric.AllOne := by
  obtain ⟨ops, _, he⟩ := (act_move hs).fabric_run
  rw [he]
  exact Run.exec_preserves (fun op _ _ h => h.apply op) h

theorem Reads.allOne {req : Message} (h : s.Reads c req) : s.shared.fabric.AllOne := by
  obtain ⟨s₀, as, s₁, h₀, hrun, hread⟩ := h.run
  have hstart : s₀.shared.fabric.AllOne := by
    obtain ⟨limits, rng, rfl⟩ := h₀
    exact (Fabric.Fresh.ofLimits limits).allOne
  exact allOne_step hread (hrun.preserves (P := fun u => u.shared.fabric.AllOne)
    (fun hs hone => allOne_step hs hone) hstart)

/-- A request that the gate holds back goes on so, up to the check that authorizes its fence. -/
theorem gated_move (hs : Continues c s a s') (h : s.Serves (gating fence) c) :
    ¬ Forwards c fence s a s' ∧ (Checks c fence s a s' ∨ s'.Serves (gating fence) c) := by
  constructor
  · rintro ⟨sl, cmd, ⟨_, call, slot, pend, hc, _⟩, _⟩
    obtain ⟨hd, hh, hf⟩ := h
    cases hc.symm.trans hh
    exact hf
  · by_cases hchecks : Checks c fence s a s'
    · exact .inl hchecks
    refine .inr (h.move (gating_passes fence) (act_move hs.1) hs.2 fun sec k ha hh hsec => ?_)
    cases sec with
    | precheck F =>
      refine hsec _ ?_
      rintro rfl hauth
      exact hchecks ⟨ha, ⟨k, hh⟩, hauth⟩
    | _ => exact hsec _

theorem lockless_move (hs : Continues c s a s') (h : s.Serves lockless c) :
    s'.Serves lockless c :=
  h.move lockless_passes (act_move hs.1) hs.2 fun _ _ _ _ hsec => hsec.elim

theorem not_checks_of_lockless (h : s.Serves lockless c) : ¬ Checks c fence s a s' := by
  rintro ⟨_, ⟨k, hc⟩, _⟩
  obtain ⟨hd, hh, hf⟩ := h
  cases hc.symm.trans hh
  exact hf

end Steps

section Schedules

variable {s : Server} {c : ℕ} {req : Message} {fence : AuthorityFence}
  {path : List (Action × Server)}

/-- A load or an activation forwards nothing before its fence is authorized. -/
theorem checked_of_gated (hreads : s.Reads c req)
    (hreq : req.type = .ctlLoad ∨ req.type = .ctlActivate)
    (hfence : decodeFence req.payload = .ok fence) (h : Run.Each (Continues c) s path) :
    Run.Awaits (Checks c fence) (Forwards c fence) s path :=
  Run.Awaits.of_step (I := Serves (gating fence) c) (fun hs hgated => gated_move hs hgated) h
    ⟨_, hreads.handler, gated_processControl hreq hfence⟩

theorem never_checks (hreads : s.Reads c req) (hreq : req.type = .ctlMigrate)
    (h : Run.Each (Continues c) s path) :
    Run.Each (fun u a v => ¬ Checks c fence u a v) s path := by
  have hserves := h.with_invariant (I := Serves lockless c) (fun hs hl => lockless_move hs hl)
    ⟨_, hreads.handler, lockless_processControl hreq⟩
  exact hserves.imp fun u a v hu => not_checks_of_lockless hu.1

/-- What no operation outdates is still up to date when it is sent. -/
theorem current_of_kept (hreads : s.Reads c req)
    (hreq : req.type = .ctlLoad ∨ req.type = .ctlActivate)
    (hfence : decodeFence req.payload = .ok fence) (h : Run.Each (Continues c) s path)
    (hkept : Run.Each (fun u a _ => ∀ op ∈ u.ops a, ¬ op.Outdates fence) s path) :
    Run.Each (fun u a v => Forwards c fence u a v → ¬ u.shared.fabric.Stale fence) s path := by
  have hinv := (h.and hkept).with_invariant
    (I := fun u => u.shared.fabric.AllOne ∧ (u.Serves (gating fence) c ∨
      Fabric.OneGenerations fence ∧ ¬ u.shared.fabric.Stale fence)) ?_
    ⟨hreads.allOne, .inl ⟨_, hreads.handler, gated_processControl hreq hfence⟩⟩
  · refine hinv.imp ?_
    rintro u a v ⟨⟨_, hgated | hcurrent⟩, hs, _⟩ hforwards
    · exact absurd hforwards (gated_move hs hgated).1
    · exact hcurrent.2
  · rintro u a v ⟨hs, hops⟩ ⟨hone, hu⟩
    refine ⟨allOne_step hs.1 hone, ?_⟩
    have hafter (hF : Fabric.OneGenerations fence) (hcurrent : ¬ u.shared.fabric.Stale fence) :
        ¬ v.shared.fabric.Stale fence := by
      obtain ⟨ops, hsub, he⟩ := (act_move hs.1).fabric_run
      rw [he]
      exact Fabric.not_stale_run (fun op ho => ⟨ops_not_recover op (hsub op ho),
        hops op (hsub op ho)⟩) hF hone hcurrent
    rcases hu with hgated | ⟨hF, hcurrent⟩
    · rcases (gated_move hs hgated).2 with hchecks | hgated
      · -- the check has just authorized the fence
        exact .inr ⟨hone.authorized hchecks.2.2,
          hafter (hone.authorized hchecks.2.2) (Fabric.not_stale_of_authorized hchecks.2.2)⟩
      · exact .inl hgated
    · exact .inr ⟨hF, hafter hF hcurrent⟩

/-- Whatever the other handlers do: a command with the fence of the request is sent only after the
request has checked it, and never while it is stale, exactly when none is sent for a migration, and
the fence is up to date at each send. It is as long as nothing outdates it. -/
theorem forwards_checked_iff (hreads : s.Reads c req) (hreq : Fenced req)
    (hfence : decodeFence req.payload = .ok fence) (h : Run.Each (Continues c) s path) :
    ((Run.Awaits (Checks c fence) (Forwards c fence) s path ∧
      Run.Each (fun u a v => Forwards c fence u a v → ¬ u.shared.fabric.Stale fence) s path) ↔
      Run.Each (fun u a v => Forwards c fence u a v →
        req.type ≠ .ctlMigrate ∧ ¬ u.shared.fabric.Stale fence) s path) ∧
    (req.type ≠ .ctlMigrate →
      Run.Each (fun u a _ => ∀ op ∈ u.ops a, ¬ op.Outdates fence) s path →
      Run.Each (fun u a v => Forwards c fence u a v → ¬ u.shared.fabric.Stale fence) s path) := by
  by_cases hmigrate : req.type = .ctlMigrate
  · refine ⟨?_, fun hne => absurd hmigrate hne⟩
    rw [Run.Awaits.iff_never (never_checks hreads hmigrate h)]
    constructor
    · rintro ⟨hnone, _⟩
      exact hnone.imp fun u a v hno hforwards => absurd hforwards hno
    · intro hcond
      exact ⟨hcond.imp fun u a v hc hforwards => (hc hforwards).1 hmigrate,
        hcond.imp fun u a v hc hforwards => (hc hforwards).2⟩
  · have hreq : req.type = .ctlLoad ∨ req.type = .ctlActivate := by
      rcases hreq with hload | hactivate | hmigrate'
      · exact .inl hload
      · exact .inr hactivate
      · exact absurd hmigrate' hmigrate
    refine ⟨?_, fun _ hkept => current_of_kept hreads hreq hfence h hkept⟩
    constructor
    · rintro ⟨_, hcurrent⟩
      exact hcurrent.imp fun u a v hc hforwards => ⟨hmigrate, hc hforwards⟩
    · intro hcond
      exact ⟨checked_of_gated hreads hreq hfence h,
        hcond.imp fun u a v hc hforwards => (hc hforwards).2⟩

end Schedules

/-! ### Commands that are sent -/

open Fabric (sampleWorker sampleFence)

/-- After `pre`, `req` is read, and `post` leads to the send of a command with the fence; every step
since the request was read meets `q`. -/
def forwardsBy (pre post : List Action) (c : ℕ) (req : Message) (fence : AuthorityFence)
    (q : Server → Action → Server → Bool) : Bool :=
  (Run.tryExec act pre start).any fun s₁ => s₁.about c (encodeMessage req) &&
    (s₁.act (.read c)).any fun s => Run.allSteps act q (post ++ [.send c true]) s &&
      (Run.tryExec act post s).any fun u =>
        (u.sending c).any (fun x => x.2.payload = encodeFence fence) &&
          (u.act (.send c true)).isSome

theorem exists_forwarding (pre post : List Action) (c : ℕ) (req : Message) (fence : AuthorityFence)
    (q : Server → Action → Server → Bool) (hrun : forwardsBy pre post c req fence q = true)
    (hmsg : decodeMessage (encodeMessage req) = .ok req) (htype : req.type ≠ .wkRegister)
    (hpost : Action.read c ∉ post) :
    ∃ s path u v, Reads s c req ∧ Run.Each (Continues c) s path ∧
      Run.Each (fun s a t => q s a t = true) s path ∧ Forwards c fence u (.send c true) v ∧
      ∀ R : Server → Action → Server → Prop, Run.Each R s path → R u (.send c true) v := by
  obtain ⟨s₁, hs₁, hrun⟩ := (Option.any_eq_true _ _).mp hrun
  obtain ⟨habout, hrun⟩ := Bool.and_eq_true_iff.mp hrun
  obtain ⟨s, hread, hrun⟩ := (Option.any_eq_true _ _).mp hrun
  obtain ⟨hall, hrun⟩ := Bool.and_eq_true_iff.mp hrun
  obtain ⟨u, hu, hrun⟩ := (Option.any_eq_true _ _).mp hrun
  obtain ⟨hsending, hsend⟩ := Bool.and_eq_true_iff.mp hrun
  obtain ⟨⟨sl, cmd⟩, hsending, hcmd⟩ := (Option.any_eq_true _ _).mp hsending
  obtain ⟨v, hv⟩ := Option.isSome_iff_exists.mp hsend
  obtain ⟨path, hpath, hlabels, hto⟩ := (Run.Steps.of_tryExec hu).exists_path_to hv
  have hlabels' : (path ++ [(Action.send c true, v)]).map Prod.fst = post ++ [.send c true] := by
    rw [List.map_append, hlabels]
    rfl
  refine ⟨s, _, u, v, ⟨⟨start, pre, s₁, start_initial, .of_tryExec hs₁, hread⟩,
    read_of_about habout hmsg htype hread⟩, hpath.and (Run.each_label.mpr fun x hx heq => ?_),
    .of_allSteps hpath (by rw [hlabels']; exact hall),
    ⟨sl, cmd, sends_of_sending hsending, of_decide_eq_true hcmd⟩, hto⟩
  have hmem : x.1 ∈ post ++ [Action.send c true] := by
    rw [← hlabels']
    exact List.mem_map_of_mem hx
  rw [heq] at hmem
  rcases List.mem_append.mp hmem with hmem | hmem
  · exact hpost hmem
  · cases List.mem_singleton.mp hmem

/-- A load whose fence stays authorized is sent, and was checked before. -/
theorem forwards_checked_iff_sample :
    ∃ s path u v, Reads s 2 loadRequest ∧ Run.Each (Continues 2) s path ∧
      Run.Awaits (Checks 2 sampleFence) (Forwards 2 sampleFence) s path ∧
      Forwards 2 sampleFence u (.send 2 true) v ∧ ¬ u.shared.fabric.Stale sampleFence := by
  obtain ⟨s, path, u, v, hreads, hpath, hauth, hforwards, hto⟩ :=
    exists_forwarding (beforeRequest loadRequest) untilSent 2 loadRequest sampleFence
      (fun s _ _ => (s.shared.fabric.checkFence sampleFence).authorized) (by decide +kernel)
      (by decide +kernel) (by decide) (by simp [untilSent])
  have hfence : decodeFence loadRequest.payload = .ok sampleFence := by decide +kernel
  have hiff := (forwards_checked_iff hreads (.inl rfl) hfence hpath).1
  obtain ⟨hawaits, hcurrent⟩ := hiff.mpr (hauth.imp fun u a v hu _ =>
    ⟨by decide, Fabric.not_stale_of_authorized hu⟩)
  exact ⟨s, path, u, v, hreads, hpath, hawaits, hforwards, hto _ hcurrent hforwards⟩

/-- A fence of an epoch that has not begun. -/
def staleFence : AuthorityFence := { sampleFence with epoch := ⟨99⟩ }

def staleMigration : Message :=
  { type := .ctlMigrate, text2 := sampleWorker.id.str, payload := encodeFence staleFence }

def epochRequest : Message := { type := .ctlEpoch }

/-- After the check of the request on the third connection, a request on a fourth one advances the
epoch. -/
def rolledBeforeSend : List Action :=
  [.advance 2, .accept 3, .peer 3 (encodeMessage epochRequest), .read 3, .advance 3] ++
    List.replicate 5 (.advance 2)

/-- Whatever is sent is sent in another epoch than that of the fence. -/
def sendsLate (s : Server) : Action → Server → Bool
  | .send _ _, _ => s.shared.fabric.epoch ≠ sampleFence.epoch
  | _, _ => true

/-- A migration is sent though nothing has checked its fence. A load whose fence was authorized is
sent in an epoch that has begun since. -/
theorem forwards_checked_counterexample :
    (∃ s c req fence path, Reads s c req ∧ req.type = .ctlMigrate ∧
      decodeFence req.payload = .ok fence ∧ Run.Each (Continues c) s path ∧
      ¬ Run.Awaits (Checks c fence) (Forwards c fence) s path) ∧
    ∃ s c req fence path, Reads s c req ∧ req.type = .ctlLoad ∧
      decodeFence req.payload = .ok fence ∧ Run.Each (Continues c) s path ∧
      ¬ Run.Each (fun u a v => Forwards c fence u a v → ¬ u.shared.fabric.Stale fence) s path := by
  constructor
  · obtain ⟨s, path, u, v, hreads, hpath, _, hforwards, hto⟩ :=
      exists_forwarding (beforeRequest staleMigration) (List.replicate 4 (.advance 2)) 2
        staleMigration staleFence (fun _ _ _ => true) (by decide +kernel) (by decide +kernel)
        (by decide) (by simp)
    refine ⟨s, 2, staleMigration, staleFence, path, hreads, rfl, decodeFence_encodeFence _, hpath,
      fun hawaits => ?_⟩
    rw [Run.Awaits.iff_never (never_checks hreads rfl hpath)] at hawaits
    exact hto _ hawaits hforwards
  · obtain ⟨s, path, u, v, hreads, hpath, hepoch, hforwards, hto⟩ :=
      exists_forwarding (beforeRequest loadRequest) rolledBeforeSend 2 loadRequest sampleFence
        sendsLate (by decide +kernel) (by decide +kernel) (by decide) (by simp [rolledBeforeSend])
    refine ⟨s, 2, loadRequest, sampleFence, path, hreads, rfl, by decide +kernel, hpath,
      fun hcurrent => hto _ hcurrent hforwards (.epoch ?_)⟩
    have hne := hto _ hepoch
    exact fun heq => of_decide_eq_true hne heq.symm

end Server

end Coordinator

end AdapterFabric
