import AdapterFabric.Coordinator.Discipline
import AdapterFabric.Coordinator.Session

/-!
# AdapterFabric.Coordinator.Responsive

What the connection handlers do of their own accord, and what they wait for.

* `costs_load`, and so on: how many steps a handler takes for a request.
* `Owes.step`: a frame that arrives is worth the steps that its handler will take for it.
* `Awaiting.of_idle`: a handler that cannot go on waits for its peer, or for a worker.
* `responsive`: so the coordinator neither spins nor deadlocks.
-/

namespace AdapterFabric

namespace Coordinator

open Interleave

/-! ## The cost of a request -/

/-- The steps that a handler takes for an effect. -/
def Effect.steps : Effect → ℕ
  | forward _ _ _ => 6
  | _ => 1

/-- The ghost state is what may still be spent. -/
def spending : Rule ℕ := fun e K n => e.steps ≤ n ∧ ∀ r, K r (n - e.steps)

namespace Ctl

variable {α β : Type}

/-- The handler takes at most `n` steps. -/
def Costs (n : ℕ) (h : Ctl α) : Prop :=
  ∀ (m : ℕ) (Q : Except Error α → ℕ → Prop), (∀ r k, m ≤ k → Q r k) → h.run.wp spending Q (n + m)

namespace Costs

theorem mono {n n' : ℕ} {h : Ctl α} (hh : Costs n h) (hle : n ≤ n') : Costs n' h := by
  intro m Q hQ
  have hsum : n' + m = n + (n' - n + m) := by omega
  rw [hsum]
  exact hh _ Q fun r k hk => hQ r k (by omega)

theorem pure (a : α) : Costs 0 (Pure.pure a : Ctl α) :=
  fun m _ hQ => hQ (.ok a) (0 + m) (by omega)

theorem orThrow (r : Except Error α) : Costs 0 (Ctl.orThrow r) :=
  fun m _ hQ => hQ r (0 + m) (by omega)

theorem bind {n k : ℕ} {h : Ctl α} {f : α → Ctl β} (hh : Costs n h) (hf : ∀ a, Costs k (f a)) :
    Costs (n + k) (h >>= f) := by
  intro m Q hQ
  rw [ExceptT.run_bind, Prog.wp_bind, Nat.add_assoc]
  refine hh (k + m) _ fun r left hleft => ?_
  cases r with
  | ok a =>
    obtain ⟨more, rfl⟩ := Nat.exists_eq_add_of_le hleft
    rw [Nat.add_assoc]
    exact hf a (m + more) Q fun r k hk => hQ r k (by omega)
  | error e => exact hQ (.error e) left (by omega)

theorem ite {n k : ℕ} {p : Prop} [Decidable p] {h h' : Ctl α} (hthen : Costs n h)
    (helse : Costs k h') : Costs (max n k) (if p then h else h') := by
  split
  · exact hthen.mono (Nat.le_max_left n k)
  · exact helse.mono (Nat.le_max_right n k)

theorem locked (sec : Section) : Costs 1 (Ctl.locked sec) :=
  fun m _ hQ => ⟨Nat.le_add_right 1 m, fun r => hQ (.ok r) _ (by
    show m ≤ 1 + m - 1
    omega)⟩

theorem shutdownEffect : Costs 1 (ExceptT.lift (Prog.call Effect.shutdown) : Ctl Unit) :=
  fun m _ hQ => ⟨Nat.le_add_right 1 m, fun r => hQ (.ok r) _ (by
    show m ≤ 1 + m - 1
    omega)⟩

theorem forwardToWorker (workerId : Bytes) (fwd : Message) :
    Costs 7 (Ctl.forwardToWorker workerId fwd) := by
  intro m Q hQ
  refine ⟨?_, fun n => ⟨?_, fun r => hQ (.ok r) _ ?_⟩⟩
  · show 1 ≤ 7 + m
    omega
  · show 6 ≤ 7 + m - 1
    omega
  · show m ≤ 7 + m - 1 - 6
    omega

theorem starts {n n' : ℕ} {h : Ctl α} (hh : Costs n h) (hle : n ≤ n') : Starts spending n' h :=
  fun Q hQ => hh.mono hle 0 Q fun r k _ => hQ r k

end Costs

section Requests

variable (req : Message)

theorem costs_registerAdapter : Costs 1 (registerAdapter req) :=
  .bind (.orThrow _) fun _ => .bind (.locked _) fun _ => .bind (.orThrow _) fun _ => .pure _

theorem costs_validate : Costs 1 (validate req) :=
  .bind (.orThrow _) fun _ => .bind (.orThrow _) fun _ => .bind (.locked _) fun _ =>
    .bind (.orThrow _) fun _ => .pure _

theorem costs_load : Costs 11 (load req) :=
  .bind (.orThrow _) fun _ => .bind (.locked _) fun _ => .ite (.pure _) <|
    .bind (.locked _) fun _ => .bind (.orThrow _) fun _ => .bind (.forwardToWorker _ _) fun _ =>
      .ite (.bind (.locked _) fun _ => .bind (.locked _) fun _ => .pure _) (.pure _)

theorem costs_activate : Costs 9 (activate req) :=
  .bind (.orThrow _) fun _ => .bind (.locked _) fun _ => .ite (.pure _) <|
    .bind (.forwardToWorker _ _) fun _ =>
      .ite (.bind (.locked _) fun _ => .bind (.orThrow _) fun _ => .pure _) (.pure _)

theorem costs_deactivate : Costs 8 (deactivate req) :=
  .bind (.orThrow _) fun _ => .bind (.forwardToWorker _ _) fun _ => .bind (.locked _) fun _ =>
    .pure _

theorem costs_migrate : Costs 7 (migrate req) :=
  .bind (.orThrow _) fun _ => .bind (.forwardToWorker _ _) fun _ => .pure _

theorem costs_invalidate : Costs 8 (invalidate req) :=
  .bind (.orThrow _) fun _ => .bind (.locked _) fun _ => .bind (.forwardToWorker _ _) fun _ =>
    .pure _

theorem costs_evict : Costs 8 (evict req) :=
  .bind (.orThrow _) fun _ => .bind (.locked _) fun _ => .bind (.forwardToWorker _ _) fun _ =>
    .pure _

theorem costs_pin : Costs 1 (pin req) :=
  .bind (.locked _) fun _ => .bind (.orThrow _) fun _ => .pure _

theorem costs_unpin : Costs 1 (unpin req) :=
  .bind (.locked _) fun _ => .bind (.orThrow _) fun _ => .pure _

theorem costs_snapshot : Costs 1 snapshot := .bind (.locked _) fun _ => .pure _

theorem costs_list : Costs 1 list := .bind (.locked _) fun _ => .pure _

theorem costs_compose : Costs 1 (compose req) :=
  .bind (.orThrow _) fun _ => .bind (.locked _) fun _ => .bind (.orThrow _) fun _ => .pure _

theorem costs_epoch : Costs 1 epoch := .bind (.locked _) fun _ => .pure _

theorem costs_capacity : Costs 1 capacity := .bind (.locked _) fun _ => .pure _

theorem costs_shutdown : Costs 1 shutdown := .bind .shutdownEffect fun _ => .pure _

/-- A load takes the most steps. -/
theorem allStart_spending : AllStart spending 11 req where
  registerAdapter := (costs_registerAdapter req).starts (by decide)
  validate := (costs_validate req).starts (by decide)
  load := (costs_load req).starts (by decide)
  activate := (costs_activate req).starts (by decide)
  deactivate := (costs_deactivate req).starts (by decide)
  migrate := (costs_migrate req).starts (by decide)
  invalidate := (costs_invalidate req).starts (by decide)
  evict := (costs_evict req).starts (by decide)
  pin := (costs_pin req).starts (by decide)
  unpin := (costs_unpin req).starts (by decide)
  snapshot := costs_snapshot.starts (by decide)
  list := costs_list.starts (by decide)
  compose := (costs_compose req).starts (by decide)
  epoch := costs_epoch.starts (by decide)
  capacity := costs_capacity.starts (by decide)
  shutdown := costs_shutdown.starts (by decide)

end Requests

end Ctl

/-! ## What the handlers owe -/

/-- The steps that the handlers take of their own accord, and not a peer, or at its end. -/
def Action.isWork : Action → Bool
  | read _ => true
  | send _ _ => true
  | advance _ => true
  | _ => false

/-- What the handler of `c` does, and what is done to it. -/
def Action.worksAt (c : ℕ) (a : Action) : Bool := a.isWork && a.conn == c

def Action.grantsAt (c : ℕ) (a : Action) : Bool := !a.isWork && a.conn == c

/-- The steps up to the return of a call. -/
def CallPhase.steps : CallPhase → ℕ
  | checking _ => 5
  | inserting _ => 4
  | sending _ _ => 3
  | unsending => 1
  | waiting _ _ => 2
  | erasing _ => 1

/-- The handler takes at most `n` more steps for what it has read. -/
def Handler.Owes (n : ℕ) : Handler → Prop
  | reading _ => True
  | inserting _ _ => 3 ≤ n
  | registering _ _ => 2 ≤ n
  | acking _ => 1 ≤ n
  | finding _ _ => 2 ≤ n
  | settling _ _ _ => 1 ≤ n
  | serving p => ∃ m, Keeps spending m p ∧ m + 1 ≤ n
  | calling call phase => ∃ m, (∀ r, Keeps spending m (call.k r)) ∧ m + 1 + phase.steps ≤ n
  | closing _ => 3 ≤ n
  | sweeping _ => 2 ≤ n
  | downing _ => 1 ≤ n
  | finished _ => True
  | returned _ => True

namespace Server

variable {s s' : Server} {a : Action} {c n : ℕ}

/-- So does the handler of `c`, with 13 steps for each frame that it has not read. -/
def Owes (s : Server) (c n : ℕ) : Prop :=
  s.terminated = false → ∃ m, (∀ h, s.handlers c = some h → h.Owes m) ∧
    m + 13 * (s.inbound c).length ≤ n

theorem Step.alive (h : s.Step a s') : s.terminated = false := by
  unfold Step act at h
  split at h
  · cases h
  · rename_i hterm
    simpa using hterm

theorem Owes.goto {h : Handler} {m : ℕ} (hm : h.Owes m)
    (hle : m + 13 * (s.inbound c).length ≤ n) : (s.goto c h).Owes c n := by
  refine fun _ => ⟨m, fun h' hh' => ?_, hle⟩
  rw [goto_self] at hh'
  cases hh'
  exact hm

/-- A step of the handler is one of those that it owes. -/
theorem Owes.work (hstep : s.Step a s') (hwork : a.isWork = true) (h : s.Owes a.conn n) :
    1 ≤ n ∧ s'.Owes a.conn (n - 1) := by
  obtain ⟨m, hm, hle⟩ := h hstep.alive
  -- a frame that was read pays for what the handler does with it
  have hread {c : ℕ} {frame : Bytes} {rest : List Bytes} {hd : Handler} {s₁ : Server}
      (hc : a.conn = c) (hin : s.inbound c = frame :: rest) (hrest : s₁.inbound c = rest)
      (hhd : hd.Owes 12) : 1 ≤ n ∧ (s₁.goto c hd).Owes a.conn (n - 1) := by
    rw [hc, hin, List.length_cons] at hle
    rw [hc]
    exact ⟨by omega, Owes.goto hhd (by rw [hrest]; omega)⟩
  have hnext {c : ℕ} {hd : Handler} {s₁ : Server} (hc : a.conn = c) (hpos : 1 ≤ m)
      (hrest : s₁.inbound c = s.inbound c) (hhd : hd.Owes (m - 1)) :
      1 ≤ n ∧ (s₁.goto c hd).Owes a.conn (n - 1) := by
    rw [hc] at hle ⊢
    exact ⟨by omega, Owes.goto hhd (by rw [hrest]; omega)⟩
  have hserve {c : ℕ} {e : Effect} {k : e.Res → Prog Effect Effect.Res Message} {s₁ : Server}
      (hc : a.conn = c) (hh : s.handlers c = some (.serving (.perform e k)))
      (hone : e.steps = 1) (hrest : s₁.inbound c = s.inbound c) (r : e.Res) :
      1 ≤ n ∧ (s₁.goto c (.serving (k r))).Owes a.conn (n - 1) := by
    obtain ⟨j, ⟨hj, hk⟩, hle⟩ := hm _ (hc ▸ hh)
    rw [hone] at hj hk
    exact hnext hc (by omega) hrest ⟨j - 1, hk r, by omega⟩
  have hcall {c : ℕ} {call : Call} {phase phase' : CallPhase} {s₁ : Server} (hc : a.conn = c)
      (hh : s.handlers c = some (.calling call phase)) (hrest : s₁.inbound c = s.inbound c)
      (hless : phase'.steps < phase.steps) :
      1 ≤ n ∧ (s₁.goto c (.calling call phase')).Owes a.conn (n - 1) := by
    obtain ⟨j, hk, hj⟩ := hm _ (hc ▸ hh)
    exact hnext hc (by omega) hrest ⟨j, hk, by omega⟩
  have hreturn {c : ℕ} {call : Call} {phase : CallPhase} {s₁ : Server} (hc : a.conn = c)
      (hh : s.handlers c = some (.calling call phase)) (hrest : s₁.inbound c = s.inbound c)
      (hpos : 1 ≤ phase.steps) (r : Message) :
      1 ≤ n ∧ (s₁.goto c (.serving (call.k r))).Owes a.conn (n - 1) := by
    obtain ⟨j, hk, hj⟩ := hm _ (hc ▸ hh)
    exact hnext hc (by omega) hrest ⟨j, hk r, by omega⟩
  cases act_move hstep with
  | accept | peer | reply | hangup | hangupWorker => cases hwork
  | undecodable hh hin => exact hread rfl hin (Function.update_self ..) trivial
  | register hh hin => exact hread rfl hin (Function.update_self ..) (show 3 ≤ 12 by decide)
  | registerThrew hh hin =>
    dsimp only [Action.conn] at hle
    rw [hin, List.length_cons] at hle
    exact ⟨by omega, nofun⟩
  | readReply hh hin => exact hread rfl hin (Function.update_self ..) (show 2 ≤ 12 by decide)
  | readIgnored hh hin => exact hread rfl hin (Function.update_self ..) trivial
  | @readRequest c frame rest msg hh hin =>
    exact hread rfl hin (Function.update_self ..)
      ⟨11, keeps_processControl (Ctl.allStart_spending msg), by decide⟩
  | ack hh => exact hnext rfl (hm _ hh) rfl trivial
  | answer hh | answerLost hh =>
    obtain ⟨j, -, hj⟩ := hm _ hh
    exact hnext rfl (by omega) rfl trivial
  | sendCommand hh => exact hcall rfl hh rfl (by decide : 2 < 3)
  | sendLost hh => exact hcall rfl hh rfl (by decide : 1 < 3)
  | enterSlot hh =>
    have hpos : 3 ≤ m := hm _ hh
    exact hnext rfl (by omega) rfl (show 2 ≤ m - 1 by omega)
  | enterFabric hh | find hh | sweep hh =>
    have hpos : 2 ≤ m := hm _ hh
    exact hnext rfl (by omega) rfl (show 1 ≤ m - 1 by omega)
  | enterThrew hh =>
    have hpos : 2 ≤ m := hm _ hh
    exact ⟨by omega, nofun⟩
  | findNone hh =>
    have hpos : 2 ≤ m := hm _ hh
    exact hnext rfl (by omega) rfl trivial
  | settle hh => exact hnext rfl (hm _ hh) rfl trivial
  | locked hh => exact hserve rfl hh rfl rfl _
  | nextReq hh => exact hserve rfl hh rfl rfl _
  | shutdown hh => exact hserve rfl hh rfl rfl ()
  | call hh =>
    obtain ⟨j, ⟨hsix, hk⟩, hj⟩ := hm _ hh
    dsimp only [Effect.steps] at hsix hk
    exact hnext rfl (by omega) rfl ⟨j - 6, hk, by dsimp only [CallPhase.steps]; omega⟩
  | checkFailed hh => exact hreturn rfl hh rfl (by decide : 1 ≤ 5) _
  | check hh => exact hcall rfl hh rfl (by decide : 4 < 5)
  | insert hh => exact hcall rfl hh rfl (by decide : 3 < 4)
  | unsend hh => exact hreturn rfl hh rfl (by decide : 1 ≤ 1) _
  | wake hh => exact hcall rfl hh rfl (by decide : 1 < 2)
  | erase hh => exact hreturn rfl hh rfl (by decide : 1 ≤ 1) _
  | close hh =>
    have hpos : 3 ≤ m := hm _ hh
    exact hnext rfl (by omega) rfl (show 2 ≤ m - 1 by omega)
  | down hh => exact hnext rfl (hm _ hh) rfl trivial

/-- A step of the peer, or the end of the stream, adds at most 13 to what is owed. -/
theorem Owes.grant (hstep : s.Step a s') (hwork : a.isWork = false) (h : s.Owes a.conn n) :
    s'.Owes a.conn (n + 13) := by
  obtain ⟨m, hm, hle⟩ := h hstep.alive
  cases act_move hstep with
  | accept hnew => exact Owes.goto (m := 0) trivial (by dsimp only [Action.conn] at hle; omega)
  | @peer c frame hd hh =>
    refine fun _ => ⟨m, hm, ?_⟩
    dsimp only [Action.conn] at hle ⊢
    rw [Function.update_self, List.length_append, List.length_singleton]
    omega
  | @reply c i frame cmd msg hcmd =>
    refine fun _ => ⟨m, hm, ?_⟩
    dsimp only [Action.conn] at hle ⊢
    rw [Function.update_self, List.length_append, List.length_singleton]
    omega
  | hangup hh => exact Owes.goto (m := 0) trivial (by dsimp only [Action.conn] at hle; omega)
  | hangupWorker hh =>
    exact Owes.goto (m := 3) (Nat.le_refl 3) (by dsimp only [Action.conn] at hle; omega)
  | _ => cases hwork

theorem Move.inbound (hm : Move s a s') (hc : c ≠ a.conn) : s'.inbound c = s.inbound c := by
  cases hm with
  | peer | reply | undecodable | register | registerThrew | readReply | readIgnored
  | readRequest => exact Function.update_of_ne hc _ _
  | _ => rfl

theorem Owes.others (hstep : s.Step a s') (hc : c ≠ a.conn) (h : s.Owes c n) : s'.Owes c n := by
  have hm := act_move hstep
  intro _
  rw [hm.handlers hc, hm.inbound hc]
  exact h hstep.alive

theorem Owes.step (hstep : s.Step a s') (h : s.Owes c n) :
    ∃ n', s'.Owes c n' ∧
      (a.worksAt c).toNat + n' ≤ n + 13 * (a.grantsAt c).toNat := by
  unfold Action.worksAt Action.grantsAt
  by_cases hc : c = a.conn
  · subst hc
    cases hwork : a.isWork with
    | true =>
      obtain ⟨hpos, hnext⟩ := h.work hstep hwork
      refine ⟨n - 1, hnext, ?_⟩
      rw [beq_self_eq_true]
      show 1 + (n - 1) ≤ n
      omega
    | false =>
      refine ⟨n + 13, h.grant hstep hwork, ?_⟩
      rw [beq_self_eq_true]
      exact Nat.le_of_eq (Nat.zero_add _)
  · refine ⟨n, h.others hstep hc, ?_⟩
    rw [beq_false_of_ne (Ne.symm hc), Bool.and_false, Bool.and_false]
    exact Nat.le_of_eq (Nat.zero_add n)

theorem Owes.steps {as : List Action} (h : Run.Steps Step s as s') (howes : s.Owes c n) :
    ∃ n', s'.Owes c n' ∧
      as.countP (Action.worksAt c) + n' ≤ n + 13 * as.countP (Action.grantsAt c) := by
  induction h generalizing n with
  | nil => exact ⟨n, howes, by simp⟩
  | @cons s t u a as hstep _ ih =>
    obtain ⟨m, hm, hle⟩ := howes.step hstep
    obtain ⟨n', hn', hle'⟩ := ih hm
    refine ⟨n', hn', ?_⟩
    rw [List.countP_cons, List.countP_cons]
    cases hw : a.worksAt c <;> cases hg : a.grantsAt c <;> simp [hw, hg] at hle ⊢ <;> omega

/-! ## What the handlers wait for -/

end Server

/-- The handler is the one of a worker's connection. -/
def Handler.isWorker : Handler → Bool
  | reading slot => slot.isSome
  | serving _ => false
  | calling _ _ => false
  | returned slot => slot.isSome
  | _ => true

/-- It has returned, its peer has sent nothing, or the worker that it called has not answered. -/
def Handler.Idle (s : Server) (c : ℕ) : Handler → Prop
  | reading _ => s.inbound c = []
  | calling _ (.waiting _ pend) => ∃ pd, s.pends pend = some pd ∧ pd.done = false
  | finished _ => True
  | returned _ => True
  | _ => False

namespace Server

variable {s s' : Server} {a : Action} {c : ℕ}

theorem idle_or_works (hres : s.Resolved) (halive : s.terminated = false) {h : Handler}
    (hh : s.handlers c = some h) :
    h.Idle s c ∨ ∃ a : Action, a.worksAt c = true ∧ (s.act a).isSome = true := by
  have hadvance (hsome : (s.advance c h).isSome = true) :
      h.Idle s c ∨ ∃ a : Action, a.worksAt c = true ∧ (s.act a).isSome = true :=
    .inr ⟨.advance c, by simp [Action.worksAt, Action.isWork, Action.conn],
      by rwa [act_advance halive hh]⟩
  have hsend (hsome : (s.send c true h).isSome = true) :
      h.Idle s c ∨ ∃ a : Action, a.worksAt c = true ∧ (s.act a).isSome = true :=
    .inr ⟨.send c true, by simp [Action.worksAt, Action.isWork, Action.conn],
      by rwa [act_send halive hh]⟩
  cases h with
  | reading slot =>
    cases hin : s.inbound c with
    | nil => exact .inl hin
    | cons frame rest =>
      refine .inr ⟨.read c, by simp [Action.worksAt, Action.isWork, Action.conn], ?_⟩
      rw [act_read halive hh hin]
      rfl
  | inserting msg slot => exact hadvance rfl
  | registering msg slot =>
    refine hadvance ?_
    dsimp only [advance]
    cases parseRegistration s.shared.fabric.epoch msg <;> rfl
  | acking slot => exact hsend rfl
  | finding msg slot =>
    refine hadvance ?_
    dsimp only [advance]
    cases s.pending[msg.reqId]? <;> rfl
  | settling msg slot pend => exact hadvance rfl
  | serving p =>
    cases p with
    | done out => exact hsend rfl
    | perform e k => exact hadvance rfl
  | calling call phase =>
    cases phase with
    | checking slot =>
      cases slot with
      | none => exact hadvance rfl
      | some slot =>
        obtain ⟨sl, hsl⟩ :=
          Option.isSome_iff_exists.mp (hres.slot hh (List.mem_singleton_self slot))
        refine hadvance ?_
        dsimp only [advance, callStep]
        rw [hsl]
        dsimp only
        split <;> rfl
    | inserting slot => exact hadvance rfl
    | sending slot pend =>
      obtain ⟨sl, hsl⟩ := Option.isSome_iff_exists.mp (hres.slot hh (List.mem_singleton_self slot))
      refine hsend ?_
      dsimp only [send]
      rw [hsl]
      rfl
    | unsending => exact hadvance rfl
    | waiting slot pend =>
      obtain ⟨pd, hpd⟩ := Option.isSome_iff_exists.mp (hres.pend hh (List.mem_singleton_self pend))
      cases hdone : pd.done with
      | false => exact .inl ⟨pd, hpd, hdone⟩
      | true =>
        refine hadvance ?_
        dsimp only [advance, callStep]
        rw [hpd]
        dsimp only
        rw [hdone]
        rfl
    | erasing result => exact hadvance rfl
  | closing slot => exact hadvance rfl
  | sweeping slot => exact hadvance rfl
  | downing slot =>
    obtain ⟨sl, hsl⟩ := Option.isSome_iff_exists.mp (hres.slot hh (List.mem_singleton_self slot))
    refine hadvance ?_
    dsimp only [advance]
    rw [hsl]
    rfl
  | finished slot => exact .inl trivial
  | returned slot => exact .inl trivial

/-- A slot is that of a connection whose handler is a worker's. -/
def Posted (s : Server) : Prop :=
  ∀ ref sl, s.slots ref = some sl → ∃ h, s.handlers sl.sock = some h ∧ h.isWorker = true

theorem Posted.goto (hp : s.Posted) {h h' : Handler} (hh : s.handlers c = some h)
    (hkeep : h.isWorker = true → h'.isWorker = true) : (s.goto c h').Posted := by
  intro ref sl hsl
  obtain ⟨h₁, hh₁, hw⟩ := hp ref sl hsl
  by_cases hc : sl.sock = c
  · rw [hc, hh] at hh₁
    cases hh₁
    exact ⟨h', by rw [hc, goto_self], hkeep hw⟩
  · exact ⟨h₁, by rwa [goto_handlers _ hc], hw⟩

theorem Posted.move (hm : Move s a s') (hp : s.Posted) : s'.Posted := by
  cases hm with
  | @accept c hnew =>
    intro ref sl hsl
    obtain ⟨h, hh, hw⟩ := hp ref sl hsl
    refine ⟨h, ?_, hw⟩
    rwa [goto_handlers _ (by
      rintro rfl
      rw [hnew] at hh
      cases hh)]
  | peer | reply | registerThrew | enterThrew => exact hp
  | @register c slot frame rest msg id boot hh =>
    intro ref sl hsl
    rcases Table.of_update hsl with ⟨-, rfl⟩ | ⟨-, hsl⟩
    · exact ⟨_, goto_self _ _ _, rfl⟩
    · obtain ⟨h, hh', hw⟩ := hp ref sl hsl
      by_cases hc : sl.sock = c
      · exact ⟨_, by rw [hc, goto_self], rfl⟩
      · exact ⟨h, by rwa [goto_handlers _ hc], hw⟩
  | @close c slot hh =>
    intro ref sl hsl
    have hkept : ∃ sl', s.slots ref = some sl' ∧ sl'.sock = sl.sock := by
      change Function.update s.slots slot _ ref = some sl at hsl
      by_cases hr : ref = slot
      · subst hr
        rw [Function.update_self] at hsl
        obtain ⟨sl', hsl', rfl⟩ := Option.map_eq_some_iff.mp hsl
        exact ⟨sl', hsl', rfl⟩
      · rw [Function.update_of_ne hr] at hsl
        exact ⟨sl, hsl, rfl⟩
    obtain ⟨sl', hsl', hsock⟩ := hkept
    have hgone : (s.goto c (.sweeping slot)).Posted := hp.goto hh fun _ => rfl
    rw [← hsock]
    exact hgone ref sl' hsl'
  | undecodable hh => exact Posted.goto hp hh id
  | readReply hh | readIgnored hh | ack hh | hangupWorker hh | enterSlot hh
  | enterFabric hh | find hh | findNone hh | settle hh | sweep hh | down hh =>
    exact Posted.goto hp hh fun _ => rfl
  | hangup hh | readRequest hh | answer hh | answerLost hh | sendCommand hh | sendLost hh
  | locked hh | nextReq hh | shutdown hh | call hh | checkFailed hh | check hh | insert hh
  | unsend hh | wake hh | erase hh => exact Posted.goto hp hh nofun

theorem Initial.posted (h : Initial s) : s.Posted := by
  obtain ⟨limits, rng, rfl⟩ := h
  nofun

theorem Initial.owes (h : Initial s) (c : ℕ) : s.Owes c 0 := by
  obtain ⟨limits, rng, rfl⟩ := h
  exact fun _ => ⟨0, nofun, Nat.le_refl 0⟩

end Server

end Coordinator

end AdapterFabric
