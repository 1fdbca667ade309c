import AdapterFabric.Coordinator.Provenance

/-!
# AdapterFabric.Coordinator.Audit

The invalidation log over runs of the coordinator and its workers.

* `Audited.apply`: one operation appends at most one record, and its records stay true.
* `audit_trail`: nothing is ever removed from the log or changed in it, its epochs never go back,
  and every record has a reason.
* `dropped_logged`: no worker drops an adapter that it held unless the log says that the adapter was
  invalidated.
-/

namespace AdapterFabric

namespace Fabric

/-! ## Records -/

/-- What a record says of the Fabric that has it in its log. -/
structure Vouched (f : Fabric) (r : InvalidationRecord) : Prop where
  trigger : r.trigger = .manual
  reason : r.reason ≠ []
  epoch : r.epoch.value.toNat ≤ f.epoch.value.toNat
  generation : r.priorGeneration = .none ∨ ∃ d, f.adapter r.adapter = some d ∧
    r.priorGeneration.value.toNat ≤ d.generation.value.toNat

/-- A log whose records are vouched for, in the order of their epochs. -/
structure Audited (f : Fabric) : Prop where
  bounded : f.GenerationsBounded
  vouched : ∀ r ∈ f.invalidationLog, Vouched f r
  sorted : f.invalidationLog.Pairwise fun r r' => r.epoch.value.toNat ≤ r'.epoch.value.toNat

section Audited

variable {f g : Fabric} {op : Op}

theorem Vouched.later {r : InvalidationRecord} (h : Vouched f r) (hlater : Later f g) :
    Vouched g r := by
  refine ⟨h.trigger, h.reason, h.epoch.trans hlater.epoch, ?_⟩
  rcases h.generation with hnone | ⟨d, hd, hle⟩
  · exact .inl hnone
  · obtain ⟨d', hd', hle'⟩ := hlater.adapters _ d hd
    exact .inr ⟨d', hd', hle.trans hle'⟩

theorem Audited.later (h : Audited f) (hbounded : g.GenerationsBounded) (hlater : Later f g)
    (hlog : g.invalidationLog = f.invalidationLog) : Audited g := by
  refine ⟨hbounded, fun r hr => ?_, hlog ▸ h.sorted⟩
  rw [hlog] at hr
  exact (h.vouched r hr).later hlater

/-- The record that an invalidation appends. -/
def revocationRecord (f : Fabric) (id : AdapterId) (trigger : InvalidationTrigger)
    (reason : Bytes) : InvalidationRecord :=
  (f.invalidate id trigger reason).1

theorem log_invalidate (f : Fabric) (id : AdapterId) (trigger : InvalidationTrigger)
    (reason : Bytes) : (f.invalidate id trigger reason).2.invalidationLog =
      f.invalidationLog ++ [f.revocationRecord id trigger reason] := rfl

/-- Nothing is recovered, and what is invalidated is invalidated manually and for a reason. -/
def Reasoned (op : Op) : Prop :=
  op.isRecover = false ∧
    ∀ id trigger reason, op = .invalidate id trigger reason → trigger = .manual ∧ reason ≠ []

theorem Audited.apply (h : Audited f) (hop : Reasoned op) :
    Audited (op.apply f) ∧ f.invalidationLog <+: (op.apply f).invalidationLog := by
  obtain ⟨hbounded, hlater⟩ := forward_step hop.1 h.bounded
  by_cases hinvalidate : ∃ id trigger reason, op = .invalidate id trigger reason
  · obtain ⟨id, trigger, reason, rfl⟩ := hinvalidate
    obtain ⟨rfl, hreason⟩ := hop.2 _ _ _ rfl
    have hlog := f.log_invalidate id .manual reason
    have hnew : Vouched f (f.revocationRecord id .manual reason) := by
      refine ⟨rfl, hreason, le_rfl, ?_⟩
      cases hd : f.adapter id with
      | none => exact .inl (by simp [revocationRecord, invalidate, hd])
      | some d =>
        exact .inr ⟨d, hd, by simp [revocationRecord, invalidate, hd]⟩
    refine ⟨⟨hbounded, fun r hr => ?_, ?_⟩, ⟨_, hlog.symm⟩⟩
    · rcases List.mem_append.mp (hlog ▸ hr) with hr | hr
      · exact (h.vouched r hr).later hlater
      · rw [List.mem_singleton.mp hr]
        exact hnew.later hlater
    · refine hlog ▸ List.pairwise_append.mpr ⟨h.sorted, List.pairwise_singleton _ _, ?_⟩
      intro r hr r' hr'
      rw [List.mem_singleton.mp hr']
      exact (h.vouched r hr).epoch
  · have hlogs : op.logs = false := by
      cases op with
      | invalidate id trigger reason => exact absurd ⟨id, trigger, reason, rfl⟩ hinvalidate
      | _ => rfl
    have hlog := (books_frame op f).2 hlogs
    exact ⟨h.later hbounded hlater hlog, hlog ▸ List.prefix_rfl⟩

theorem Audited.run (h : Audited f) (ops : List Op) (hops : ∀ op ∈ ops, Reasoned op) :
    Audited (run ops f) ∧ f.invalidationLog <+: (run ops f).invalidationLog :=
  Run.exec_preserves
    (P := fun g : Fabric => Audited g ∧ f.invalidationLog <+: g.invalidationLog)
    (fun op ho _ hg =>
      have hnext := hg.1.apply (hops op ho)
      ⟨hnext.1, hg.2.trans hnext.2⟩)
    ⟨h, List.prefix_rfl⟩

/-- The adapter has a record. -/
def Logged (f : Fabric) (id : AdapterId) : Prop := ∃ r ∈ f.invalidationLog, r.adapter = id

theorem Logged.grows {id : AdapterId} (h : Logged f id)
    (hlog : f.invalidationLog <+: g.invalidationLog) : Logged g id := by
  obtain ⟨r, hr, hid⟩ := h
  exact ⟨r, hlog.subset hr, hid⟩

end Audited

end Fabric

namespace Coordinator

open Fabric (Op Audited Reasoned Logged)

/-! ## Requests -/

/-- A worker is told to invalidate an adapter only after the log has a record of it; the ghost state
is the adapter that the request has invalidated. -/
def auditing : Rule (Option AdapterId)
  | .locked (.invalidate id reason), K, _ => reason ≠ [] ∧ ∀ r, K r (some id)
  | .locked _, K, g => ∀ r, K r g
  | .nextReq, K, g => ∀ n, K n g
  | .forward _ _ fwd, K, g =>
    (fwd.type = .wkInvalidate → ∃ id, g = some id ∧ fwd.text = id.str) ∧ ∀ r, K r g
  | .shutdown, K, g => ∀ r, K r g

namespace Ctl

theorem asks_auditing {sec : Section} (hinvalidate : ∀ id reason, sec ≠ .invalidate id reason) :
    Asks auditing (.locked sec) := by
  intro K hK g
  cases sec with
  | invalidate id reason => exact absurd rfl (hinvalidate id reason)
  | _ => exact fun r => hK r g

theorem forwards_auditing {type : MsgType} (htype : type ≠ .wkInvalidate) :
    Forwards auditing type := by
  refine ⟨fun _ hK g n => hK n g, fun n workerId fwd hcmd hfwd K hK g => ?_⟩
  exact ⟨fun h => absurd (hfwd ▸ h) htype, fun r => hK r g⟩

theorem asks_auditing_shutdown : Asks auditing .shutdown := fun _ hK g r => hK r g

theorem starts_invalidate (req : Message) : Starts auditing none (invalidate req) := by
  intro Q hQ
  show wp auditing (invalidate req) Q none
  unfold invalidate
  refine wp_orThrow_bind (fun id _ => ?_) fun e _ => hQ _ _
  rw [wp_locked_bind]
  refine ⟨?_, fun rec => ?_⟩
  · split
    · decide
    · rename_i hne
      simpa using hne
  · beta_reduce
    rw [wp_forward_bind]
    intro n
    exact ⟨fun _ => ⟨id, rfl, rfl⟩, fun ack => hQ _ _⟩

theorem allStart_auditing (req : Message) : AllStart auditing none req where
  registerAdapter := Free.registerAdapter req (fun _ => asks_auditing nofun) _
  validate := Free.validate req (fun _ _ => asks_auditing nofun) _
  load := Free.load req (fun _ => asks_auditing nofun) (fun _ => asks_auditing nofun)
    (forwards_auditing (by decide)) (fun _ _ => asks_auditing nofun)
    (fun _ => asks_auditing nofun) _
  activate := Free.activate req (fun _ => asks_auditing nofun) (forwards_auditing (by decide))
    (fun _ => asks_auditing nofun) _
  deactivate := Free.deactivate req (forwards_auditing (by decide))
    (fun _ => asks_auditing nofun) _
  migrate := Free.migrate req (forwards_auditing (by decide)) _
  invalidate := starts_invalidate req
  evict := Free.evict req (fun _ => asks_auditing nofun) (forwards_auditing (by decide)) _
  pin := Free.pin req (fun _ => asks_auditing nofun) _
  unpin := Free.unpin req (fun _ => asks_auditing nofun) _
  snapshot := Free.snapshot (asks_auditing nofun) _
  list := Free.list (asks_auditing nofun) _
  compose := Free.compose req (fun _ _ => asks_auditing nofun) _
  epoch := Free.epoch (asks_auditing nofun) _
  capacity := Free.capacity (asks_auditing nofun) _
  shutdown := Free.shutdown asks_auditing_shutdown _

end Ctl

theorem audits_processControl (req : Message) : Keeps auditing none (processControl req) :=
  keeps_processControl (Ctl.allStart_auditing req)

/-! ## Runs -/

theorem Section.reasoned {sec : Section}
    (h : ∀ id reason, sec = .invalidate id reason → reason ≠ []) (s : Shared) :
    ∀ op ∈ sec.ops s, Reasoned op := by
  intro op hop
  refine ⟨(Section.ops_isControl sec s op hop).keyed.2, ?_⟩
  rintro id trigger reason rfl
  cases sec with
  | invalidate id' reason' =>
    simp only [Section.ops, List.mem_singleton, Op.invalidate.injEq] at hop
    obtain ⟨-, rfl, rfl⟩ := hop
    exact ⟨rfl, h _ _ rfl⟩
  | evict inst =>
    simp only [Section.ops] at hop
    split at hop <;> simp at hop
  | pin text =>
    simp only [Section.ops] at hop
    split at hop <;> simp at hop
  | unpin text =>
    simp only [Section.ops] at hop
    split at hop <;> simp at hop
  | _ => simp [Section.ops] at hop

/-- What the ghost state of a request stands for. -/
def Revoked (f : Fabric) (g : Option AdapterId) : Prop := ∀ id, g = some id → Logged f id

theorem Revoked.grows {f f' : Fabric} {g : Option AdapterId} (h : Revoked f g)
    (hlog : f.invalidationLog <+: f'.invalidationLog) : Revoked f' g :=
  fun id hid => (h id hid).grows hlog

namespace Server

structure Audits (s : Server) : Prop where
  obeys : s.Obeys auditing fun _ => Revoked s.shared.fabric
  sent : ∀ x ∈ s.history.sent, x.cmd.type = .wkInvalidate →
    ∃ id, x.cmd.text = id.str ∧ Logged s.shared.fabric id
  audited : Audited s.shared.fabric

variable {s s' : Server}

theorem Audits.log_move {a : Action} (hm : Move s a s') (h : s.Audits) :
    Audited s'.shared.fabric ∧
      s.shared.fabric.invalidationLog <+: s'.shared.fabric.invalidationLog := by
  rcases hm.fabric_cases with he | ⟨c, sec, k, hh, he⟩ | ⟨msg, he⟩ | ⟨id, he⟩
  · rw [he]
    exact ⟨h.audited, List.prefix_rfl⟩
  · rw [he, sec.run_refines]
    refine h.audited.run _ (Section.reasoned (fun id reason hsec => ?_) s.shared)
    subst hsec
    obtain ⟨g, hg, hp⟩ := h.obeys c _ hh
    exact hp.1
  · rw [he]
    rcases wkRegister_cases s.shared.fabric msg with he | ⟨rec, -, -, -, he⟩
    · rw [he]
      exact ⟨h.audited, List.prefix_rfl⟩
    · rw [he]
      exact h.audited.run [.registerWorker rec, .onWorkerRestart rec.id rec.boot]
        (by simp [Reasoned, Op.isRecover])
  · rw [he]
    exact h.audited.run [.onWorkerDown id] (by simp [Reasoned, Op.isRecover])

theorem auditing_sound {a : Action} (hm : Move s a s') (h : s.Audits) :
    Sound auditing (fun _ => Revoked s.shared.fabric) (fun _ => Revoked s'.shared.fabric) s s' where
  start _ req := ⟨none, nofun, audits_processControl req⟩
  keep _ _ hg := hg.grows (h.log_move hm).2
  locked _ sec K g hshared hg hK := by
    have hg' := hg.grows (h.log_move hm).2
    cases sec with
    | invalidate id reason =>
      refine ⟨some id, ?_, hK.2 _⟩
      rintro _ ⟨rfl⟩
      rw [hshared]
      exact ⟨_, List.mem_append_right _ (List.mem_singleton_self _), rfl⟩
    | _ => exact ⟨g, hg', hK _⟩
  nextReq _ _ g hg hK := ⟨g, hg.grows (h.log_move hm).2, hK _⟩
  shutdown _ _ g hg hK := ⟨g, hg.grows (h.log_move hm).2, hK _⟩
  returns _ _ r _ g hg hK _ := ⟨g, hg.grows (h.log_move hm).2, hK.2 r⟩

theorem Audits.move {a : Action} (hm : Move s a s') (h : s.Audits) : s'.Audits := by
  have hobeys := h.obeys.move hm (auditing_sound hm h)
  obtain ⟨haudited, hlog⟩ := h.log_move hm
  have hsent (x : Sent) (hx : x ∈ s.history.sent) (htype : x.cmd.type = .wkInvalidate) :
      ∃ id, x.cmd.text = id.str ∧ Logged s'.shared.fabric id := by
    obtain ⟨id, htext, hlogged⟩ := h.sent x hx htype
    exact ⟨id, htext, hlogged.grows hlog⟩
  refine ⟨hobeys, ?_, haudited⟩
  cases hm with
  | @sendCommand c call slot pend sl hh hsl =>
    intro x hx htype
    rcases List.mem_cons.mp hx with rfl | hx
    · obtain ⟨g, hg, hcmd, -⟩ := h.obeys.calling hh
      obtain ⟨id, rfl, htext⟩ := hcmd htype
      exact ⟨id, htext, hg id rfl⟩
    · exact hsent x hx htype
  | _ => exact hsent

theorem Initial.audits (h : Initial s) : s.Audits := by
  have hobeys := h.obeys auditing fun _ => Revoked s.shared.fabric
  obtain ⟨limits, rng, rfl⟩ := h
  refine ⟨hobeys, nofun, ⟨?_, nofun, .nil⟩⟩
  exact Fabric.Fresh.generationsBounded (.ofLimits limits)

/-- Whatever clients and workers send, the log only grows; its epochs never go back; and every
record is a manual invalidation for a reason, in an epoch and of a generation of the past. -/
theorem audit_trail {s₀ t : Server} {as bs : List Action} (h₀ : Initial s₀)
    (h : Run.Steps Step s₀ as s) (h' : Run.Steps Step s bs t) :
    s.shared.fabric.invalidationLog <+: t.shared.fabric.invalidationLog ∧
      (∀ r ∈ t.shared.fabric.invalidationLog, Fabric.Vouched t.shared.fabric r) ∧
      t.shared.fabric.invalidationLog.Pairwise fun r r' =>
        r.epoch.value.toNat ≤ r'.epoch.value.toNat := by
  have hs := h.preserves (P := Audits) (fun hstep hs => hs.move (act_move hstep)) h₀.audits
  have ht : t.Audits ∧ s.shared.fabric.invalidationLog <+: t.shared.fabric.invalidationLog := by
    refine h'.preserves (P := fun t : Server => t.Audits ∧
      s.shared.fabric.invalidationLog <+: t.shared.fabric.invalidationLog) (fun hstep ht => ?_)
      ⟨hs, List.prefix_rfl⟩
    have hm := act_move hstep
    exact ⟨ht.1.move hm, ht.2.trans (ht.1.log_move hm).2⟩
  exact ⟨ht.2, ht.1.audited.vouched, ht.1.audited.sorted⟩

open Fabric (sampleAdapter sampleWorker)

def revokeRequest : Message :=
  { type := .ctlInvalidate, text := sampleAdapter.id.str, text2 := sampleWorker.id.str }

/-- A client has an adapter invalidated. -/
def revokesOnce : List Action :=
  [.accept 1, .peer 1 (encodeMessage revokeRequest), .read 1, .advance 1]

theorem audit_trail_sample : ∃ s, Run.Steps Step start revokesOnce s ∧
    ∃ r ∈ s.shared.fabric.invalidationLog, r.reason ≠ [] := by
  obtain ⟨s, hs, hlog⟩ : ∃ s : Server, Run.tryExec act revokesOnce start = some s ∧
      s.shared.fabric.invalidationLog.length = 1 :=
    Run.exists_tryExec (by decide +kernel)
  have hrun := Run.Steps.of_tryExec hs
  obtain ⟨r, hr⟩ := List.length_eq_one_iff.mp hlog
  have hmem : r ∈ s.shared.fabric.invalidationLog := by simp [hr]
  exact ⟨s, hrun, r, hmem, ((audit_trail start_initial hrun (.nil s)).2.1 r hmem).reason⟩

end Server

/-! ## What workers drop -/

namespace Deployment

variable {d d' : Deployment} {a : Action} {c : ℕ} {text : Bytes}

/-- A worker drops only what it is told to invalidate. -/
theorem dropped_handle {w : WorkerService} {msg : Message}
    (hold : w.localResidency[text]? ≠ none)
    (hnew : (w.handleCommand msg).1.localResidency[text]? = none) :
    msg.type = .wkInvalidate ∧ msg.text = text := by
  unfold WorkerService.handleCommand at hnew
  by_cases hload : msg.type = .wkLoad
  · rw [if_pos hload] at hnew
    dsimp only at hnew
    rw [Table.get_insert] at hnew
    split at hnew
    · cases hnew
    · exact absurd hnew hold
  · rw [if_neg hload] at hnew
    by_cases hinvalidate : msg.type = .wkInvalidate
    · refine ⟨hinvalidate, ?_⟩
      rw [hinvalidate] at hnew
      have hnew : (w.localResidency.erase msg.text)[text]? = none := hnew
      rw [Table.get_erase] at hnew
      split at hnew
      · assumption
      · exact absurd hnew hold
    · split_ifs at hnew <;> exact absurd hnew hold

/-- The log has a record of the adapter of the text. -/
def LoggedText (d : Deployment) (text : Bytes) : Prop :=
  ∃ id, text = id.str ∧ Logged d.server.shared.fabric id

/-- The worker holds the adapter of the text, or its process has ended, or the log says why not. -/
def Accounts (d : Deployment) (c : ℕ) (text : Bytes) : Prop :=
  (∃ w, d.processes c = some (.running w) ∧ w.localResidency[text]? ≠ none) ∨
    d.processes c = some .exited ∨ d.LoggedText text

theorem Accounts.handle {w : WorkerService} {x : Delivery} {rest : List Delivery}
    {delivered : Bool} (hd : d.Sound) (haudits : d.server.Audits)
    (hgrows : d.LoggedText text →
      ((d.handle c w x x.message delivered).taken c rest).LoggedText text)
    (hp : d.processes c = some (.running w)) (hx : d.downstream c = x :: rest)
    (h : d.Accounts c text) :
    ((d.handle c w x x.message delivered).taken c rest).Accounts c text := by
  have hself : ((d.handle c w x x.message delivered).taken c rest).processes c =
      some (if (w.handleCommand x.message).1.stop then .exited
        else .running (w.handleCommand x.message).1) := Function.update_self ..
  rcases h with ⟨w', hw', hheld⟩ | hexited | hlogged
  · obtain rfl := Process.running.inj (Option.some.inj (hp.symm.trans hw'))
    by_cases hstop : (w.handleCommand x.message).1.stop = true
    · rw [if_pos hstop] at hself
      exact .inr (.inl hself)
    rw [if_neg hstop] at hself
    by_cases hnew : (w.handleCommand x.message).1.localResidency[text]? = none
    · obtain ⟨htype, rfl⟩ := dropped_handle hheld hnew
      cases x with
      | ack epoch => cases htype
      | command cmd =>
        have hsent : cmd ∈ sentOver d.server.history c := by
          have horderly := hd.orderly c
          rw [hp] at horderly
          rw [horderly.1.sent, hx]
          simp
        obtain ⟨y, hy, -, rfl⟩ := mem_sentOver hsent
        exact .inr (.inr (hgrows (haudits.sent y hy htype)))
    · exact .inl ⟨_, hself, hnew⟩
  · cases hp.symm.trans hexited
  · exact .inr (.inr (hgrows hlogged))

theorem Accounts.move (hd : d.Sound) (haudits : d.server.Audits) (hm : Move d a d')
    (h : d.Accounts c text) : d'.Accounts c text := by
  have hgrows : d.LoggedText text → d'.LoggedText text := by
    rintro ⟨id, htext, hlogged⟩
    refine ⟨id, htext, ?_⟩
    rcases hm.refines hd with he | ⟨b, hb, -⟩
    · rwa [he]
    · exact hlogged.grows (haudits.log_move (Server.act_move hb)).2
  have hsame (hprocess : d'.processes c = d.processes c) : d'.Accounts c text := by
    rcases h with ⟨w, hw, hheld⟩ | hexited | hlogged
    · exact .inl ⟨w, hprocess.trans hw, hheld⟩
    · exact .inr (.inl (hprocess.trans hexited))
    · exact .inr (.inr (hgrows hlogged))
  have hother {c' : ℕ} {p : Process}
      (hprocesses : d'.processes = Function.update d.processes c' (some p)) (hc : c ≠ c') :
      d'.Accounts c text :=
    hsame (by rw [hprocesses, Function.update_of_ne hc])
  have hnot {p : Process} (hp : d.processes c = some p)
      (hrunning : ∀ w, p ≠ .running w) (hexited : p ≠ .exited) : d'.LoggedText text := by
    rcases h with ⟨w, hw, -⟩ | he | hlogged
    · exact absurd (Option.some.inj (hp.symm.trans hw)) (hrunning w)
    · exact absurd (Option.some.inj (hp.symm.trans he)) hexited
    · exact hgrows hlogged
  cases hm with
  | coordinator hpermits hstep => exact hsame rfl
  | @launch c' opts server hstep =>
    by_cases hc : c = c'
    · subst hc
      have hnone : d.processes c = none := by
        by_contra hsome
        cases Server.act_move hstep with
        | accept hnew => exact hd.accepted c hsome hnew
      rcases h with ⟨w, hw, -⟩ | he | hlogged
      · cases hnone.symm.trans hw
      · cases hnone.symm.trans he
      · exact .inr (.inr (hgrows hlogged))
    · exact hother rfl hc
  | @registerLost c' w hp | @gaveUp c' p x rest delivered hp hx | @exit c' p hp =>
    by_cases hc : c = c'
    · subst hc
      exact .inr (.inl (Function.update_self ..))
    · exact hother rfl hc
  | @registerLong c' w hp | @register c' w server hp hsize hstep
  | @acked c' w x rest delivered hp hx hok =>
    by_cases hc : c = c'
    · subst hc
      exact .inr (.inr (hnot hp nofun nofun))
    · exact hother rfl hc
  | @handle c' w x rest delivered hp hx =>
    by_cases hc : c = c'
    · subst hc
      exact .handle hd haudits hgrows hp hx h
    · exact hother rfl hc

theorem Steps.audits {d₀ : Deployment} {as : List Action} (h₀ : Initial d₀)
    (h : Run.Steps Step d₀ as d) : d.server.Audits := by
  have haudits : d₀.server.Audits := by
    obtain ⟨s, hs, rfl⟩ := h₀
    exact hs.audits
  exact Steps.server (P := Server.Audits) h₀ h haudits fun hm hs => hs.move hm

/-- What a worker held, and does not hold any more although it runs, was invalidated: the log has a
record of it. -/
theorem dropped_logged {d₀ : Deployment} {as bs : List Action} {v : Bool × UInt64}
    {w : WorkerService} (h₀ : Initial d₀) (h : Run.Steps Step d₀ as d) (h' : Run.Steps Step d bs d')
    (hres : d.Resident c text v) (hw : d'.processes c = some (.running w))
    (hgone : w.localResidency[text]? = none) :
    ∃ r ∈ d'.server.shared.fabric.invalidationLog, r.adapter.str = text ∧ r.trigger = .manual ∧
      r.reason ≠ [] := by
  obtain ⟨w₀, hw₀, hheld⟩ := hres
  have hstart : d.Accounts c text := .inl ⟨w₀, hw₀, by simp [hheld]⟩
  have hend : d'.Sound ∧ d'.server.Audits ∧ d'.Accounts c text := by
    refine h'.preserves (P := fun d : Deployment => d.Sound ∧ d.server.Audits ∧ d.Accounts c text)
      (fun hs hd => ?_) ⟨Steps.sound h₀ h, Steps.audits h₀ h, hstart⟩
    have hm := act_move hs
    refine ⟨hd.1.move hm, ?_, hd.2.2.move hd.1 hd.2.1 hm⟩
    rcases hm.refines hd.1 with he | ⟨b, hb, -⟩
    · rw [he]
      exact hd.2.1
    · exact hd.2.1.move (Server.act_move hb)
  rcases hend.2.2 with ⟨w', hw', hkept⟩ | hexited | ⟨id, rfl, r, hr, rfl⟩
  · obtain rfl := Process.running.inj (Option.some.inj (hw.symm.trans hw'))
    exact absurd hgone hkept
  · cases hw.symm.trans hexited
  · have hvouched := hend.2.1.audited.vouched r hr
    exact ⟨r, hr, rfl, hvouched.trigger, hvouched.reason⟩

open Fabric (sampleAdapter)

/-- The client has the adapter that it has loaded invalidated, and the worker drops it. -/
def revokesLoaded : List Action :=
  [.peer 1 (encodeMessage Server.revokeRequest), .read 1, .advance 1, .advance 1, .advance 1,
    .advance 1, .advance 1, .send 1 true].map .coordinator ++ [.receive 0 true]

/-- The only process of a deployment runs, and does not hold the sample adapter. -/
def idle (d : Deployment) : Bool :=
  match d.processes 0 with
  | some (.running w) => w.localResidency[sampleAdapter.id.str]?.isNone
  | _ => false

theorem dropped_logged_sample : ∃ d d' : Deployment,
    Run.Steps Step coordinatorAlone loadsOnce d ∧ Run.Steps Step d revokesLoaded d' ∧
    ∃ r ∈ d'.server.shared.fabric.invalidationLog, r.adapter.str = sampleAdapter.id.str := by
  obtain ⟨d, hd, hheld, hnext⟩ : ∃ d : Deployment,
      Run.tryExec act loadsOnce coordinatorAlone = some d ∧ d.held = some (true, 1) ∧
        (Run.tryExec act revokesLoaded d).any (fun d' => decide (d'.idle = true)) = true :=
    Run.exists_tryExec (by decide +kernel)
  obtain ⟨d', hd', hidle⟩ := Run.exists_tryExec hnext
  have hrun := Run.Steps.of_tryExec hd
  have hrun' := Run.Steps.of_tryExec hd'
  obtain ⟨w, hw, hgone⟩ : ∃ w, d'.processes 0 = some (.running w) ∧
      w.localResidency[sampleAdapter.id.str]? = none := by
    unfold idle at hidle
    split at hidle
    · rename_i w hw
      exact ⟨w, hw, by simpa using hidle⟩
    · cases hidle
  obtain ⟨r, hr, hid, -⟩ :=
    dropped_logged coordinatorAlone_initial hrun hrun' (resident_of_held hheld) hw hgone
  exact ⟨d, d', hrun, hrun', r, hr, hid⟩

end Deployment

end Coordinator

end AdapterFabric
