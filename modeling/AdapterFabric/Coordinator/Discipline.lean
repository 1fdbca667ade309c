import AdapterFabric.Coordinator.Ledger

/-!
# AdapterFabric.Coordinator.Discipline

Ghost state for the requests that the handlers serve. A rule says what each effect of a request may
do to it, and the handlers of every run keep to the rule if `process_control` does.

* `Ctl.Free`: handlers that a rule asks nothing of, and what a rule may ask of each request so that
  it asks nothing of its handler.
* `keeps_processControl`: every request keeps to a rule if the handlers of all types do.
* `Obeys.move`: if what the ghost states stand for survives a step, the handlers go on obeying.
* `Obeys.calling`: what a handler that is about to send has promised.
-/

namespace AdapterFabric

namespace Coordinator

open Interleave

/-- The commands that requests forward. They claim nothing, and name no bytes. -/
structure IsCommand (fwd : Message) : Prop where
  type : fwd.type ∈ [MsgType.wkLoad, MsgType.wkActivate, MsgType.wkDeactivate, MsgType.wkMigrate,
    MsgType.wkInvalidate]
  ok : fwd.ok = false
  a : fwd.a = 0

/-- A rule for the effects of a request, over the ghost state `γ`. -/
abbrev Rule (γ : Type) : Type := (e : Effect) → (e.Res → γ → Prop) → γ → Prop

section

variable {γ : Type} {Φ : Rule γ} {α β : Type}

/-! ## Handlers that a rule asks nothing of -/

namespace Ctl

/-- From the ghost state `g` the handler may do whatever it does. -/
def Starts (Φ : Rule γ) (g : γ) (h : Ctl α) : Prop :=
  ∀ Q : Except Error α → γ → Prop, (∀ r g, Q r g) → h.run.wp Φ Q g

theorem Starts.ite {p : Prop} [Decidable p] {h h' : Ctl α} {g : γ} (hthen : Starts Φ g h)
    (helse : Starts Φ g h') : Starts Φ g (if p then h else h') := by
  split
  · exact hthen
  · exact helse

/-- From any ghost state it may. -/
def Free (Φ : Rule γ) (h : Ctl α) : Prop := ∀ g, Starts Φ g h

/-- The rule asks nothing of the effect. -/
def Asks (Φ : Rule γ) (e : Effect) : Prop :=
  ∀ K : e.Res → γ → Prop, (∀ r g, K r g) → ∀ g, Φ e K g

namespace Free

theorem pure (a : α) : Free Φ (Pure.pure a : Ctl α) := fun g _ hQ => hQ (.ok a) g

theorem orThrow (r : Except Error α) : Free Φ (Ctl.orThrow r) := fun g _ hQ => hQ r g

theorem bind {h : Ctl α} {f : α → Ctl β} (hh : Free Φ h) (hf : ∀ a, Free Φ (f a)) :
    Free Φ (h >>= f) := by
  intro g Q hQ
  rw [ExceptT.run_bind, Prog.wp_bind]
  refine hh g _ fun r g => ?_
  cases r with
  | ok a => exact hf a g Q hQ
  | error e => exact hQ (.error e) g

theorem ite {p : Prop} [Decidable p] {h h' : Ctl α} (hthen : Free Φ h) (helse : Free Φ h') :
    Free Φ (if p then h else h') := fun g => (hthen g).ite (helse g)

theorem locked {sec : Section} (hsec : Asks Φ (.locked sec)) : Free Φ (Ctl.locked sec) :=
  fun g _ hQ => hsec _ (fun r g => hQ (.ok r) g) g

theorem shutdownEffect (hshutdown : Asks Φ .shutdown) :
    Free Φ (ExceptT.lift (Prog.call Effect.shutdown) : Ctl Unit) :=
  fun g _ hQ => hshutdown _ (fun r g => hQ (.ok r) g) g

theorem forwardToWorker {workerId : Bytes} {fwd : Message} (hnext : Asks Φ .nextReq)
    (hfwd : ∀ n, Asks Φ (.forward n workerId fwd)) : Free Φ (Ctl.forwardToWorker workerId fwd) :=
  fun g _ hQ => hnext _ (fun n g => hfwd n _ (fun r g => hQ (.ok r) g) g) g

end Free

/-! ## The requests -/

/-- The rule asks nothing of commands of a type. -/
def Forwards (Φ : Rule γ) (type : MsgType) : Prop :=
  Asks Φ .nextReq ∧
    ∀ n workerId fwd, IsCommand fwd → fwd.type = type → Asks Φ (.forward n workerId fwd)

namespace Free

theorem command {workerId : Bytes} {fwd : Message} (h : Forwards Φ fwd.type)
    (hcmd : IsCommand fwd) : Free Φ (Ctl.forwardToWorker workerId fwd) :=
  .forwardToWorker h.1 fun n => h.2 n workerId fwd hcmd rfl

variable (req : Message)

theorem registerAdapter (h : ∀ d, Asks Φ (.locked (.registerAdapter d))) :
    Free Φ (Ctl.registerAdapter req) :=
  .bind (.orThrow _) fun _ => .bind (.locked (h _)) fun _ => .bind (.orThrow _) fun _ => .pure _

theorem validate (h : ∀ text t, Asks Φ (.locked (.validate text t))) : Free Φ (Ctl.validate req) :=
  .bind (.orThrow _) fun _ => .bind (.orThrow _) fun _ => .bind (.locked (h _ _)) fun _ =>
    .bind (.orThrow _) fun _ => .pure _

theorem load (hpre : ∀ F, Asks Φ (.locked (.precheck F)))
    (hcreate : ∀ F, Asks Φ (.locked (.createInstance F))) (hfwd : Forwards Φ .wkLoad)
    (hmark : ∀ inst bytes, Asks Φ (.locked (.markReady inst bytes)))
    (hready : ∀ id, Asks Φ (.locked (.setReady id))) : Free Φ (Ctl.load req) :=
  .bind (.orThrow _) fun _ => .bind (.locked (hpre _)) fun _ => .ite (.pure _) <|
    .bind (.locked (hcreate _)) fun _ => .bind (.orThrow _) fun _ =>
      .bind (.command hfwd ⟨by simp, rfl, rfl⟩) fun _ =>
        .ite (.bind (.locked (hmark _ _)) fun _ => .bind (.locked (hready _)) fun _ => .pure _)
          (.pure _)

theorem activate (hpre : ∀ F, Asks Φ (.locked (.precheck F))) (hfwd : Forwards Φ .wkActivate)
    (hbind : ∀ F, Asks Φ (.locked (.bind F))) : Free Φ (Ctl.activate req) :=
  .bind (.orThrow _) fun _ => .bind (.locked (hpre _)) fun _ => .ite (.pure _) <|
    .bind (.command hfwd ⟨by simp, rfl, rfl⟩) fun _ =>
      .ite (.bind (.locked (hbind _)) fun _ => .bind (.orThrow _) fun _ => .pure _) (.pure _)

theorem deactivate (hfwd : Forwards Φ .wkDeactivate)
    (hready : ∀ id, Asks Φ (.locked (.setReady id))) : Free Φ (Ctl.deactivate req) :=
  .bind (.orThrow _) fun _ => .bind (.command hfwd ⟨by simp, rfl, rfl⟩) fun _ =>
    .bind (.locked (hready _)) fun _ => .pure _

theorem migrate (hfwd : Forwards Φ .wkMigrate) : Free Φ (Ctl.migrate req) :=
  .bind (.orThrow _) fun _ => .bind (.command hfwd ⟨by simp, rfl, rfl⟩) fun _ => .pure _

theorem invalidate (h : ∀ id reason, Asks Φ (.locked (.invalidate id reason)))
    (hfwd : Forwards Φ .wkInvalidate) : Free Φ (Ctl.invalidate req) :=
  .bind (.orThrow _) fun _ => .bind (.locked (h _ _)) fun _ =>
    .bind (.command hfwd ⟨by simp, rfl, rfl⟩) fun _ => .pure _

theorem evict (h : ∀ inst, Asks Φ (.locked (.evict inst))) (hfwd : Forwards Φ .wkDeactivate) :
    Free Φ (Ctl.evict req) :=
  .bind (.orThrow _) fun _ => .bind (.locked (h _)) fun _ =>
    .bind (.command hfwd ⟨by simp, rfl, rfl⟩) fun _ => .pure _

theorem pin (h : ∀ text, Asks Φ (.locked (.pin text))) : Free Φ (Ctl.pin req) :=
  .bind (.locked (h _)) fun _ => .bind (.orThrow _) fun _ => .pure _

theorem unpin (h : ∀ text, Asks Φ (.locked (.unpin text))) : Free Φ (Ctl.unpin req) :=
  .bind (.locked (h _)) fun _ => .bind (.orThrow _) fun _ => .pure _

theorem snapshot (h : Asks Φ (.locked .snapshot)) : Free Φ Ctl.snapshot :=
  .bind (.locked h) fun _ => .pure _

theorem list (h : Asks Φ (.locked .list)) : Free Φ Ctl.list := .bind (.locked h) fun _ => .pure _

theorem compose (h : ∀ ids policy, Asks Φ (.locked (.compose ids policy))) :
    Free Φ (Ctl.compose req) :=
  .bind (.orThrow _) fun _ => .bind (.locked (h _ _)) fun _ => .bind (.orThrow _) fun _ => .pure _

theorem epoch (h : Asks Φ (.locked .epoch)) : Free Φ Ctl.epoch := .bind (.locked h) fun _ => .pure _

theorem capacity (h : Asks Φ (.locked .capacity)) : Free Φ Ctl.capacity :=
  .bind (.locked h) fun _ => .pure _

theorem shutdown (h : Asks Φ .shutdown) : Free Φ Ctl.shutdown :=
  .bind (.shutdownEffect h) fun _ => .pure _

end Free

/-- From `g` the handlers of all requests may do whatever they do. -/
structure AllStart (Φ : Rule γ) (g : γ) (req : Message) : Prop where
  registerAdapter : Starts Φ g (Ctl.registerAdapter req)
  validate : Starts Φ g (Ctl.validate req)
  load : Starts Φ g (Ctl.load req)
  activate : Starts Φ g (Ctl.activate req)
  deactivate : Starts Φ g (Ctl.deactivate req)
  migrate : Starts Φ g (Ctl.migrate req)
  invalidate : Starts Φ g (Ctl.invalidate req)
  evict : Starts Φ g (Ctl.evict req)
  pin : Starts Φ g (Ctl.pin req)
  unpin : Starts Φ g (Ctl.unpin req)
  snapshot : Starts Φ g Ctl.snapshot
  list : Starts Φ g Ctl.list
  compose : Starts Φ g (Ctl.compose req)
  epoch : Starts Φ g Ctl.epoch
  capacity : Starts Φ g Ctl.capacity
  shutdown : Starts Φ g Ctl.shutdown

theorem AllStart.dispatch {g : γ} {req : Message} (h : AllStart Φ g req) :
    Starts Φ g (Ctl.dispatch req) := by
  unfold Ctl.dispatch
  refine .ite h.registerAdapter (.ite h.validate (.ite h.load (.ite h.activate (.ite h.deactivate
    (.ite h.migrate (.ite h.invalidate (.ite h.evict (.ite h.pin (.ite h.unpin (.ite h.snapshot
    (.ite h.list (.ite h.compose (.ite h.epoch (.ite h.capacity (.ite h.shutdown
    (.ite ?_ ?_))))))))))))))))
  · exact Free.pure _ g
  · exact Free.pure _ g

end Ctl

/-- A request keeps to the rule from the ghost state `g` on. -/
def Keeps (Φ : Rule γ) (g : γ) (p : Prog Effect Effect.Res Message) : Prop :=
  p.wp Φ (fun _ _ => True) g

theorem keeps_processControl {req : Message} {g : γ} (h : Ctl.AllStart Φ g req) :
    Keeps Φ g (processControl req) := by
  unfold Keeps processControl
  rw [Prog.wp_bind]
  refine h.dispatch _ fun r g => ?_
  cases r with
  | ok out => trivial
  | error e => trivial

end

/-! ## The handlers of a run -/

/-- The request of the handler keeps to the rule from a ghost state of which `G` holds. -/
def Handler.Obeys {γ : Type} (Φ : Rule γ) (G : γ → Prop) : Handler → Prop
  | serving p => ∃ g, G g ∧ Keeps Φ g p
  | calling call _ =>
    ∃ g, G g ∧ Φ (.forward call.reqId call.workerId call.fwd) (fun r g => Keeps Φ g (call.k r)) g
  | _ => True

namespace Server

/-- `M c` says what the ghost state of the request that `c` serves stands for. -/
def Obeys {γ : Type} (Φ : Rule γ) (M : ℕ → γ → Prop) (s : Server) : Prop :=
  ∀ c h, s.handlers c = some h → h.Obeys Φ (M c)

variable {γ : Type} {Φ : Rule γ} {M M' : ℕ → γ → Prop} {s s' : Server} {c : ℕ}

theorem Obeys.calling (h : s.Obeys Φ M) {call : Call} {phase : CallPhase}
    (hh : s.handlers c = some (.calling call phase)) :
    ∃ g, M c g ∧
      Φ (.forward call.reqId call.workerId call.fwd) (fun r g => Keeps Φ g (call.k r)) g :=
  h c _ hh

theorem Handler.Obeys.imp {G G' : γ → Prop} {h : Handler} (hobeys : h.Obeys Φ G)
    (hG : ∀ g, G g → G' g) : h.Obeys Φ G' := by
  cases h with
  | serving p =>
    obtain ⟨g, hg, hp⟩ := hobeys
    exact ⟨g, hG g hg, hp⟩
  | calling call phase =>
    obtain ⟨g, hg, hp⟩ := hobeys
    exact ⟨g, hG g hg, hp⟩
  | _ => trivial

theorem Obeys.goto (h : s.Obeys Φ M) (hkeep : ∀ c g, M c g → M' c g) {hd : Handler}
    (hhd : hd.Obeys Φ (M' c)) : (s.goto c hd).Obeys Φ M' := by
  intro d hd' hh
  rcases Table.of_update hh with ⟨rfl, rfl⟩ | ⟨-, hh⟩
  · exact hhd
  · exact Handler.Obeys.imp (h d hd' hh) (hkeep d)

/-- The steps a rule has to allow for: what the ghost states stand for survives, a section leads to
a ghost state for its result, and a call that returns leads to one for its answer. -/
structure Sound (Φ : Rule γ) (M M' : ℕ → γ → Prop) (s s' : Server) : Prop where
  start : ∀ c req, ∃ g, M' c g ∧ Keeps Φ g (processControl req)
  keep : ∀ c g, M c g → M' c g
  locked : ∀ c sec K g, s'.shared = (sec.run s.shared).2 → M c g → Φ (.locked sec) K g →
    ∃ g', M' c g' ∧ K (sec.run s.shared).1 g'
  nextReq : ∀ c K g, M c g → Φ .nextReq K g → ∃ g', M' c g' ∧ K s.shared.nextReq g'
  shutdown : ∀ c K g, M c g → Φ .shutdown K g → ∃ g', M' c g' ∧ K () g'
  returns : ∀ c (call : Call) r K g, M c g →
    Φ (.forward call.reqId call.workerId call.fwd) K g →
    ⟨call.entry c, r⟩ ∈ s'.history.returned → ∃ g', M' c g' ∧ K r g'

theorem Obeys.move {a : Action} (hm : Move s a s') (hsound : Sound Φ M M' s s')
    (h : s.Obeys Φ M) : s'.Obeys Φ M' := by
  have hsame : s.Obeys Φ M' := fun d hd hh => Handler.Obeys.imp (h d hd hh) (hsound.keep d)
  have hidle {c : ℕ} {hd : Handler} (hhd : hd.Obeys Φ (M' c)) : (s.goto c hd).Obeys Φ M' :=
    h.goto hsound.keep hhd
  have hcall {c : ℕ} {call : Call} {phase phase' : CallPhase}
      (hh : s.handlers c = some (.calling call phase)) :
      (s.goto c (.calling call phase')).Obeys Φ M' := by
    have hobeys : Handler.Obeys Φ (M' c) (.calling call phase) := hsame c _ hh
    exact hidle hobeys
  have hreturn {c : ℕ} {call : Call} {phase : CallPhase} {r : Message}
      (hh : s.handlers c = some (.calling call phase))
      (hmem : ⟨call.entry c, r⟩ ∈ s'.history.returned) :
      (s.goto c (.serving (call.k r))).Obeys Φ M' := by
    obtain ⟨g, hg, hfwd⟩ := h.calling hh
    exact hidle (hsound.returns c call r _ g hg hfwd hmem)
  cases hm with
  | peer hh | reply hcmd hmsg | registerThrew hh hin | enterThrew hh => exact hsame
  | readRequest hh hin hmsg htype => exact hidle (hsound.start _ _)
  | locked hh =>
    obtain ⟨g, hg, hp⟩ := h _ _ hh
    exact hidle (hsound.locked _ _ _ g rfl hg hp)
  | nextReq hh =>
    obtain ⟨g, hg, hp⟩ := h _ _ hh
    exact hidle (hsound.nextReq _ _ g hg hp)
  | shutdown hh =>
    obtain ⟨g, hg, hp⟩ := h _ _ hh
    exact hidle (hsound.shutdown _ _ g hg hp)
  | call hh =>
    obtain ⟨g, hg, hp⟩ := h _ _ hh
    exact hidle ⟨g, hsound.keep _ g hg, hp⟩
  | checkFailed hh | unsend hh | erase hh => exact hreturn hh (List.mem_cons_self ..)
  | check hh hsl hconn => exact hcall hh
  | insert hh => exact hcall hh
  | sendCommand hh hsl => exact hcall hh
  | sendLost hh => exact hcall hh
  | wake hh hpd hdone => exact hcall hh
  | _ => exact hidle trivial

theorem Initial.obeys (h : Initial s) (Φ : Rule γ) (M : ℕ → γ → Prop) : s.Obeys Φ M := by
  obtain ⟨limits, rng, rfl⟩ := h
  nofun

end Server

end Coordinator

end AdapterFabric
