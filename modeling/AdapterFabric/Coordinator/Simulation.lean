import AdapterFabric.Coordinator.Move

/-!
# AdapterFabric.Coordinator.Simulation

The connection handlers simulate the coordinator's threads: each request is a thread, a call of
`forward_to_worker` is one effect of it, and registrations and teardowns are the events.

* `Simulated.move`: a step of a handler is a step of `system`, or none.
* `Simulated.invariant`: so what every interleaving of `system` preserves holds of the handlers.
-/

namespace AdapterFabric

namespace Coordinator

open Interleave

/-- What is left of the request that the handler serves. A call is over when it returns. -/
def Handler.program : Handler → Option (Prog Effect Effect.Res Message)
  | serving p => some p
  | calling call _ => some (.perform (.forward call.reqId call.workerId call.fwd) call.k)
  | _ => none

namespace Server

def programs (s : Server) (c : ℕ) : Option (Prog Effect Effect.Res Message) :=
  (s.handlers c).bind Handler.program

/-- A run of the coordinator's threads leads to what the handlers share and run. -/
def Simulated (s : Server) : Prop :=
  ∃ c₀ ls c thread free, Coordinator.Initial c₀ ∧ Steps c₀ ls c ∧ c.shared = s.shared ∧
    Tracks s.programs c.threads thread free

section

variable {s s' : Server}

theorem programs_of_handler {c : ℕ} {h : Handler} (hh : s.handlers c = some h) :
    s.programs c = h.program := by
  unfold programs
  rw [hh]
  rfl

theorem programs_goto (s : Server) (c : ℕ) (h : Handler) :
    (s.goto c h).programs = Function.update s.programs c h.program := by
  funext d
  unfold programs
  by_cases hd : d = c
  · subst hd
    rw [goto_self, Function.update_self]
    rfl
  · rw [goto_handlers _ hd, Function.update_of_ne hd]

theorem Simulated.goto (hsim : s.Simulated) {c : ℕ} {h : Handler}
    (hprogram : ∀ p, h.program = some p → s.programs c = some p) : (s.goto c h).Simulated := by
  obtain ⟨c₀, ls, cfg, thread, free, h₀, hrun, hshared, htracks⟩ := hsim
  refine ⟨c₀, ls, cfg, thread, free, h₀, hrun, hshared, htracks.keep fun d p hp => ?_⟩
  rw [programs_goto] at hp
  by_cases hd : d = c
  · subst hd
    rw [Function.update_self] at hp
    exact hprogram p hp
  · rwa [Function.update_of_ne hd] at hp

theorem Simulated.idle (hsim : s.Simulated) {c : ℕ} {h : Handler} (hnone : h.program = none) :
    (s.goto c h).Simulated :=
  hsim.goto fun p hp => by rw [hnone] at hp; cases hp

theorem Simulated.stay (hsim : s.Simulated) {c : ℕ} {h h' : Handler} (hh : s.handlers c = some h)
    (hsame : h'.program = h.program) : (s.goto c h').Simulated :=
  hsim.goto fun p hp => by rw [programs_of_handler hh, ← hsame]; exact hp

theorem Simulated.spawn (hsim : s.Simulated) (c : ℕ) (req : Message) :
    (s.goto c (.serving (processControl req))).Simulated := by
  obtain ⟨c₀, ls, cfg, thread, free, h₀, hrun, hshared, htracks⟩ := hsim
  have hstep : Coordinator.Step cfg (.spawn free req)
      { cfg with threads := Function.update cfg.threads free (some (processControl req)) } :=
    .spawn req (htracks.free free (Nat.le_refl free))
  have htracks' := htracks.spawn c (processControl req)
  have hprograms := programs_goto s c (.serving (processControl req))
  exact ⟨c₀, _, _, _, _, h₀, hrun.append (.single hstep), hshared, hprograms ▸ htracks'⟩

theorem Simulated.effect (hsim : s.Simulated) {c : ℕ} {e : Effect} {r : e.Res}
    {k : e.Res → Prog Effect Effect.Res Message} {shared : Shared}
    (hprogram : s.programs c = some (.perform e k)) (hexec : exec s.shared e r shared) :
    ({ s with shared }.goto c (.serving (k r))).Simulated := by
  obtain ⟨c₀, ls, cfg, thread, free, h₀, hrun, hshared, htracks⟩ := hsim
  have hstep : Coordinator.Step cfg (.effect (thread c) e r)
      ⟨shared, Function.update cfg.threads (thread c) (some (k r))⟩ :=
    .effect (htracks.runs c _ hprogram) (hshared ▸ hexec)
  refine ⟨c₀, _, _, thread, free, h₀, hrun.append (.single hstep), rfl, ?_⟩
  rw [programs_goto]
  exact htracks.advance hprogram (k r)

theorem Simulated.event (hsim : s.Simulated) {v : WorkerEvent} {shared : Shared}
    (henv : env s.shared v shared) : Simulated { s with shared } := by
  obtain ⟨c₀, ls, cfg, thread, free, h₀, hrun, hshared, htracks⟩ := hsim
  have hstep : Coordinator.Step cfg (.event v) { cfg with shared } := .event (hshared ▸ henv)
  exact ⟨c₀, _, _, thread, free, h₀, hrun.append (.single hstep), rfl, htracks⟩

theorem Simulated.move {a : Action} (hm : Move s a s') (h : s.Simulated) : s'.Simulated := by
  cases hm with
  | peer hh => exact h
  | reply hcmd hmsg => exact h
  | registerThrew hh hin => exact h
  | enterThrew hh => exact h
  | readRequest hh hin hmsg htype => exact h.spawn _ _
  | locked hh => exact h.effect (programs_of_handler hh) rfl
  | nextReq hh => exact h.effect (programs_of_handler hh) ⟨rfl, rfl⟩
  | shutdown hh => exact h.effect (programs_of_handler hh) rfl
  | checkFailed hh => exact h.effect (programs_of_handler hh) rfl
  | unsend hh => exact h.effect (programs_of_handler hh) rfl
  | erase hh => exact h.effect (programs_of_handler hh) rfl
  | @enterFabric c msg slot rec hh hrec => exact (h.event (v := .register msg) rfl).idle rfl
  | @down c slot sl hh hsl => exact (h.event (v := .down sl.id) rfl).idle rfl
  | sendCommand hh _ | sendLost hh | call hh | check hh _ _ | insert hh | wake hh _ _ =>
    exact h.stay hh rfl
  | accept hh | hangup hh | hangupWorker hh | undecodable hh _ _ | register hh _ _ _ _ _
  | readReply hh _ _ _ _ | readIgnored hh _ _ _ _ | ack hh | answer hh | answerLost hh
  | enterSlot hh | find hh _ | findNone hh | settle hh | close hh | sweep hh =>
    exact h.idle rfl

theorem Initial.simulated (h : Initial s) : s.Simulated := by
  obtain ⟨limits, rng, rfl⟩ := h
  exact ⟨_, [], _, id, 0, ⟨limits, rng, rfl⟩, .nil _, rfl, nofun, nofun, fun _ _ => rfl⟩

/-- Whatever the handlers do, a run of the coordinator's threads does. -/
theorem Steps.simulated {as : List Action} (h₀ : Initial s) (h : Run.Steps Step s as s') :
    s'.Simulated :=
  h.preserves (P := Simulated) (fun hstep hs => hs.move (act_move hstep)) h₀.simulated

/-- What the effects and the events preserve holds of what the handlers share. -/
theorem Simulated.invariant {I : Shared → Prop} (h : s.Simulated)
    (h₀ : ∀ c : Config, Coordinator.Initial c → I c.shared)
    (hexec : ∀ {s e r s'}, exec s e r s' → I s → I s')
    (henv : ∀ {s v s'}, env s v s' → I s → I s') : I s.shared := by
  obtain ⟨c₀, ls, c, thread, free, hc₀, hrun, hshared, _⟩ := h
  rw [← hshared]
  exact Interleave.invariant (S := system) hexec henv hrun (h₀ c₀ hc₀)

end

end Server

end Coordinator

end AdapterFabric
