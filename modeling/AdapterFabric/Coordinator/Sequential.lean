import AdapterFabric.Coordinator.LiveWorker
import AdapterFabric.Lib.ProgramLogic

/-!
# AdapterFabric.Coordinator.Sequential

One control request with no other event in between.

* `served`: the answer and the state it leaves, when the worker answers every command with `ack`.
* `served_reachable`: it is what one of the interleavings comes to.
* `Ctl.evalBy_bind`: a handler runs one effect after another until one throws.
-/

namespace AdapterFabric

namespace Coordinator

open Interleave

/-- The answer of `process_control`, and the state it leaves. -/
def served (ack req : Message) (s : Shared) : Message × Shared :=
  (processControl req).eval (answer ack) s

theorem served_reachable {s : Shared} {m : ℕ} (h : Reaches s m) (ack req : Message) :
    ∃ c₀ ls c, Initial c₀ ∧ Steps c₀ ls c ∧ c.shared = (served ack req s).2 ∧
      c.threads m = some (.done (served ack req s).1) := by
  obtain ⟨n, hn⟩ := Prog.solo_eval (answer ack) (processControl req) s
  obtain ⟨c₀, ls, c, h₀, hrun, hshared, hthread, _⟩ := h.request_thread ack n req
  refine ⟨c₀, ls, c, h₀, hrun, hshared.trans (congrArg Prod.snd hn), ?_⟩
  exact hthread.trans (congrArg some (congrArg Prod.fst hn))

namespace Ctl

/-! ## Answered by any function -/

section EvalBy

variable {σ α β : Type}

/-- A handler whose effects are answered by `ans`. -/
def evalBy (ans : σ → (e : Effect) → e.Res × σ) (h : Ctl α) (s : σ) : Except Error α × σ :=
  Prog.eval ans h.run s

variable (ans : σ → (e : Effect) → e.Res × σ) (s : σ)

theorem evalBy_bind (h : Ctl α) (f : α → Ctl β) :
    evalBy ans (h >>= f) s =
      match (evalBy ans h s).1 with
      | .ok a => evalBy ans (f a) (evalBy ans h s).2
      | .error e => (.error e, (evalBy ans h s).2) := by
  show Prog.eval ans ((h >>= f).run) s = _
  rw [ExceptT.run_bind, Prog.eval_bind]
  unfold evalBy
  cases (Prog.eval ans h.run s).1 with
  | ok a => rfl
  | error e => rfl

variable {ans s}

theorem evalBy_locked_bind {sec : Section} {k : sec.Res → Ctl β} :
    evalBy ans (locked sec >>= k) s =
      evalBy ans (k (ans s (.locked sec)).1) (ans s (.locked sec)).2 := by
  rw [evalBy_bind]
  rfl

theorem evalBy_forward_bind {workerId : Bytes} {fwd : Message} {k : Message → Ctl β} :
    evalBy ans (forwardToWorker workerId fwd >>= k) s =
      evalBy ans
        (k (ans (ans s .nextReq).2 (.forward (ans s .nextReq).1 workerId fwd)).1)
        (ans (ans s .nextReq).2 (.forward (ans s .nextReq).1 workerId fwd)).2 := by
  rw [evalBy_bind]
  rfl

theorem evalBy_orThrow_ok {r : Except Error α} {k : α → Ctl β} {a : α} (h : r = .ok a) :
    evalBy ans (orThrow r >>= k) s = evalBy ans (k a) s := by
  subst h
  rw [evalBy_bind]
  rfl

theorem evalBy_orThrow_error {r : Except Error α} {k : α → Ctl β} {e : Error} (h : r = .error e) :
    evalBy ans (orThrow r >>= k) s = (.error e, s) := by
  subst h
  rw [evalBy_bind]
  rfl

theorem evalBy_orThrow_pure {r : Except Error α} {f : α → β} :
    (evalBy ans (orThrow r >>= fun a => pure (f a)) s).2 = s := by
  cases r with
  | error e => rw [evalBy_orThrow_error rfl]
  | ok a => rw [evalBy_orThrow_ok rfl]; rfl

end EvalBy

/-! ## Answered by one message -/

/-- A handler on its own: what it returns or throws, and the state it leaves. -/
def eval {α : Type} (ack : Message) (h : Ctl α) (s : Shared) : Except Error α × Shared :=
  Prog.eval (answer ack) h.run s

section Eval

variable {α β : Type} {ack : Message} {s : Shared}

theorem eval_locked_bind {sec : Section} {k : sec.Res → Ctl β} :
    eval ack (locked sec >>= k) s = eval ack (k (sec.run s).1) (sec.run s).2 :=
  evalBy_locked_bind

theorem eval_forward_bind {workerId : Bytes} {fwd : Message} {k : Message → Ctl β} :
    eval ack (forwardToWorker workerId fwd >>= k) s =
      eval ack (k ack) { s with nextReq := s.nextReq + 1 } :=
  evalBy_forward_bind

theorem eval_orThrow_ok {r : Except Error α} {k : α → Ctl β} {a : α} (h : r = .ok a) :
    eval ack (orThrow r >>= k) s = eval ack (k a) s :=
  evalBy_orThrow_ok h

theorem eval_orThrow_error {r : Except Error α} {k : α → Ctl β} {e : Error} (h : r = .error e) :
    eval ack (orThrow r >>= k) s = (.error e, s) :=
  evalBy_orThrow_error h

end Eval

/-! ## The answer -/

/-- What `process_control` makes of the outcome of the handler. -/
def answerOf : Except Error Message → Message
  | .ok out => out
  | .error e => { out with ok := false, text := e.code.toBytes ++ ascii ": " ++ e.message }

end Ctl

theorem eval_processControl {σ : Type} (ans : σ → (e : Effect) → e.Res × σ) (req : Message)
    (s : σ) :
    (processControl req).eval ans s =
      (Ctl.answerOf (Ctl.evalBy ans (Ctl.dispatch req) s).1,
        (Ctl.evalBy ans (Ctl.dispatch req) s).2) := by
  unfold processControl Ctl.evalBy
  rw [Prog.eval_bind]
  cases (Prog.eval ans (Ctl.dispatch req).run s).1 with
  | ok out => rfl
  | error e => rfl

theorem served_eq (ack req : Message) (s : Shared) :
    served ack req s =
      (Ctl.answerOf (Ctl.eval ack (Ctl.dispatch req) s).1,
        (Ctl.eval ack (Ctl.dispatch req) s).2) :=
  eval_processControl (answer ack) req s

end Coordinator

end AdapterFabric
