import AdapterFabric.Coordinator.Control
import AdapterFabric.Lib.ProgramLogic

/-!
# AdapterFabric.Coordinator.Numbering

The request ids that `process_control` forwards with: each one is drawn from `next_req_` for one
command, and used for that command only.

* `numbered_processControl`: so it is for every request.
-/

namespace AdapterFabric

namespace Coordinator

open Interleave

/-- The ghost state is the id that has been drawn last and not been used. -/
def numbering : (e : Effect) → (e.Res → Option UInt64 → Prop) → Option UInt64 → Prop
  | .locked _, K, held => ∀ r, K r held
  | .nextReq, K, _ => ∀ n, K n (some n)
  | .forward reqId _ _, K, held => held = some reqId ∧ ∀ r, K r none
  | .shutdown, K, held => ∀ r, K r held

/-- The program forwards only with ids that it draws, or with the one it holds. -/
def Numbered (held : Option UInt64) (p : Prog Effect Effect.Res Message) : Prop :=
  p.wp numbering (fun _ _ => True) held

section Numbered

variable {held : Option UInt64}

theorem Numbered.locked {sec : Section} {k : sec.Res → Prog Effect Effect.Res Message}
    (h : Numbered held (.perform (.locked sec) k)) (r : sec.Res) : Numbered held (k r) := h r

theorem Numbered.nextReq {k : UInt64 → Prog Effect Effect.Res Message}
    (h : Numbered held (.perform .nextReq k)) (n : UInt64) : Numbered (some n) (k n) := h n

theorem Numbered.forward {reqId : UInt64} {workerId : Bytes} {fwd : Message}
    {k : Message → Prog Effect Effect.Res Message}
    (h : Numbered held (.perform (.forward reqId workerId fwd) k)) :
    held = some reqId ∧ ∀ r, Numbered none (k r) := h

theorem Numbered.shutdown {k : Unit → Prog Effect Effect.Res Message}
    (h : Numbered held (.perform .shutdown k)) : Numbered held (k ()) := h ()

end Numbered

/-! ## Handlers -/

namespace Ctl

variable {α β : Type}

/-- The handler uses an id only after it has drawn it, and starts and ends without one. -/
def Draws (h : Ctl α) : Prop :=
  ∀ Q : Except Error α → Option UInt64 → Prop, (∀ r g, Q r g) → ∀ held, h.run.wp numbering Q held

namespace Draws

theorem pure (a : α) : Draws (Pure.pure a : Ctl α) := fun _ hQ held => hQ (.ok a) held

theorem orThrow (r : Except Error α) : Draws (Ctl.orThrow r) := fun _ hQ held => hQ r held

theorem bind {h : Ctl α} {f : α → Ctl β} (hh : Draws h) (hf : ∀ a, Draws (f a)) :
    Draws (h >>= f) := by
  intro Q hQ held
  rw [ExceptT.run_bind, Prog.wp_bind]
  refine hh _ (fun r g => ?_) held
  cases r with
  | ok a => exact hf a Q hQ g
  | error e => exact hQ (.error e) g

theorem ite {p : Prop} [Decidable p] {h h' : Ctl α} (hthen : Draws h) (helse : Draws h') :
    Draws (if p then h else h') := by
  split
  · exact hthen
  · exact helse

theorem locked (sec : Section) : Draws (Ctl.locked sec) := fun _ hQ held r => hQ (.ok r) held

theorem shutdownEffect :
    Draws (ExceptT.lift (Prog.call Effect.shutdown) : Ctl Unit) :=
  fun _ hQ held r => hQ (.ok r) held

/-- The id is drawn, and used at once. -/
theorem forwardToWorker (workerId : Bytes) (fwd : Message) :
    Draws (Ctl.forwardToWorker workerId fwd) := fun _ hQ _ _ => ⟨rfl, fun r => hQ (.ok r) none⟩

end Draws

section Dispatch

variable (req : Message)

theorem draws_registerAdapter : Draws (registerAdapter req) :=
  .bind (.orThrow _) fun _ => .bind (.locked _) fun _ => .bind (.orThrow _) fun _ => .pure _

theorem draws_validate : Draws (validate req) :=
  .bind (.orThrow _) fun _ => .bind (.orThrow _) fun _ => .bind (.locked _) fun _ =>
    .bind (.orThrow _) fun _ => .pure _

theorem draws_load : Draws (load req) :=
  .bind (.orThrow _) fun _ => .bind (.locked _) fun _ => .ite (.pure _) <|
    .bind (.locked _) fun _ => .bind (.orThrow _) fun _ => .bind (.forwardToWorker _ _) fun _ =>
      .ite (.bind (.locked _) fun _ => .bind (.locked _) fun _ => .pure _) (.pure _)

theorem draws_activate : Draws (activate req) :=
  .bind (.orThrow _) fun _ => .bind (.locked _) fun _ => .ite (.pure _) <|
    .bind (.forwardToWorker _ _) fun _ =>
      .ite (.bind (.locked _) fun _ => .bind (.orThrow _) fun _ => .pure _) (.pure _)

theorem draws_deactivate : Draws (deactivate req) :=
  .bind (.orThrow _) fun _ => .bind (.forwardToWorker _ _) fun _ => .bind (.locked _) fun _ =>
    .pure _

theorem draws_migrate : Draws (migrate req) :=
  .bind (.orThrow _) fun _ => .bind (.forwardToWorker _ _) fun _ => .pure _

theorem draws_invalidate : Draws (invalidate req) :=
  .bind (.orThrow _) fun _ => .bind (.locked _) fun _ => .bind (.forwardToWorker _ _) fun _ =>
    .pure _

theorem draws_evict : Draws (evict req) :=
  .bind (.orThrow _) fun _ => .bind (.locked _) fun _ => .bind (.forwardToWorker _ _) fun _ =>
    .pure _

theorem draws_pin : Draws (pin req) :=
  .bind (.locked _) fun _ => .bind (.orThrow _) fun _ => .pure _

theorem draws_unpin : Draws (unpin req) :=
  .bind (.locked _) fun _ => .bind (.orThrow _) fun _ => .pure _

theorem draws_snapshot : Draws snapshot := .bind (.locked _) fun _ => .pure _

theorem draws_list : Draws list := .bind (.locked _) fun _ => .pure _

theorem draws_compose : Draws (compose req) :=
  .bind (.orThrow _) fun _ => .bind (.locked _) fun _ => .bind (.orThrow _) fun _ => .pure _

theorem draws_epoch : Draws epoch := .bind (.locked _) fun _ => .pure _

theorem draws_capacity : Draws capacity := .bind (.locked _) fun _ => .pure _

theorem draws_shutdown : Draws shutdown := .bind .shutdownEffect fun _ => .pure _

theorem draws_dispatch : Draws (dispatch req) := by
  unfold dispatch
  refine .ite (draws_registerAdapter req) (.ite (draws_validate req) (.ite (draws_load req)
    (.ite (draws_activate req) (.ite (draws_deactivate req) (.ite (draws_migrate req)
    (.ite (draws_invalidate req) (.ite (draws_evict req) (.ite (draws_pin req)
    (.ite (draws_unpin req) (.ite draws_snapshot (.ite draws_list (.ite (draws_compose req)
    (.ite draws_epoch (.ite draws_capacity (.ite draws_shutdown (.ite ?_ ?_))))))))))))))))
  · exact .pure _
  · exact .pure _

end Dispatch

end Ctl

theorem numbered_processControl (req : Message) : Numbered none (processControl req) := by
  unfold Numbered processControl
  rw [Prog.wp_bind]
  refine Ctl.draws_dispatch req _ (fun r g => ?_) none
  cases r with
  | ok out => trivial
  | error e => trivial

end Coordinator

end AdapterFabric
