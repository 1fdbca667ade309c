import AdapterFabric.Coordinator.Correlation
import AdapterFabric.Coordinator.Session

/-!
# AdapterFabric.Coordinator.Forwarding

Where the command of a request that carries a fence goes.

* `Named.move`: a slot is looked up, and called, by a text of the id that it has.
* `Follows.move`: a request that carries a fence forwards that fence, to the worker of its text.
* `sent_to_fenced_iff`: a load or an activation sends a command to the worker of its fence exactly
  when its text names that worker.
-/

namespace AdapterFabric

namespace Coordinator

open Interleave

/-! ## The slots that texts name -/

/-- The text is one of the id of the slot. -/
def SlotOf (slots : ℕ → Option WorkerSlot) (text : Bytes) (ref : ℕ) : Prop :=
  ∃ sl, slots ref = some sl ∧ mustParse text = .ok sl.id

/-- Slots are entered, and called, by the texts that they were registered with. -/
structure Entitled (slots : ℕ → Option WorkerSlot) (workers : StrMap ℕ)
    (handlers : ℕ → Option Handler) : Prop where
  table : ∀ (text : Bytes) (ref : ℕ), workers[text]? = some ref → SlotOf slots text ref
  calls : ∀ c call phase, handlers c = some (.calling call phase) →
    ∀ ref ∈ phase.slotRefs, SlotOf slots call.workerId ref

abbrev Server.Named (s : Server) : Prop := Entitled s.slots s.workers s.handlers

namespace Entitled

variable {slots slots' : ℕ → Option WorkerSlot} {workers : StrMap ℕ}
  {handlers : ℕ → Option Handler} {c : ℕ} {h : Handler}

theorem goto (he : Entitled slots workers handlers)
    (hcall : ∀ call phase, h = .calling call phase →
      ∀ ref ∈ phase.slotRefs, SlotOf slots call.workerId ref) :
    Entitled slots workers (Function.update handlers c (some h)) := by
  refine ⟨he.table, fun d call phase hh => ?_⟩
  rcases Table.of_update hh with ⟨-, hnew⟩ | ⟨-, hh⟩
  · exact hcall call phase hnew
  · exact he.calls d call phase hh

theorem idle (he : Entitled slots workers handlers)
    (hidle : ∀ call phase, h ≠ .calling call phase) :
    Entitled slots workers (Function.update handlers c (some h)) :=
  he.goto fun call phase heq => absurd heq (hidle call phase)

theorem keep (he : Entitled slots workers handlers) {call : Call} {phase phase' : CallPhase}
    (hh : handlers c = some (.calling call phase))
    (hrefs : ∀ ref ∈ phase'.slotRefs, ref ∈ phase.slotRefs) :
    Entitled slots workers (Function.update handlers c (some (.calling call phase'))) := by
  refine he.goto fun call' phase'' heq ref href => ?_
  cases heq
  exact he.calls c call phase hh ref (hrefs ref href)

theorem reslot (he : Entitled slots workers handlers)
    (hids : ∀ ref sl, slots ref = some sl → ∃ sl', slots' ref = some sl' ∧ sl'.id = sl.id) :
    Entitled slots' workers handlers := by
  have hslot (text : Bytes) (ref : ℕ) (h : SlotOf slots text ref) : SlotOf slots' text ref := by
    obtain ⟨sl, hsl, hid⟩ := h
    obtain ⟨sl', hsl', hid'⟩ := hids ref sl hsl
    exact ⟨sl', hsl', hid'.symm ▸ hid⟩
  exact ⟨fun text ref href => hslot text ref (he.table text ref href),
    fun c call phase hh ref href => hslot _ ref (he.calls c call phase hh ref href)⟩

theorem enterWorker (he : Entitled slots workers handlers) {text : Bytes} {ref : ℕ}
    (href : SlotOf slots text ref) : Entitled slots (workers.insert text ref) handlers := by
  refine ⟨fun text' ref' href' => ?_, he.calls⟩
  rcases Table.of_insert href' with ⟨rfl, rfl⟩ | href'
  · exact href
  · exact he.table text' ref' href'

end Entitled

namespace Server

variable {s s' : Server}

theorem Named.move {a : Action} (hm : Move s a s') (hres : s.Resolved) (hsess : s.Sessions)
    (h : s.Named) : s'.Named := by
  cases hm with
  | peer hh => exact h
  | reply hcmd hmsg => exact h
  | registerThrew hh hin => exact h
  | enterThrew hh => exact h
  | register hh hin hmsg htype hid hboot =>
    refine Entitled.idle (h.reslot fun ref sl hsl => ?_) nofun
    exact ⟨sl, slots_newSlot hres.fresh_slot _ hsl, rfl⟩
  | enterSlot hh => exact Entitled.idle (h.enterWorker (hsess.fits _ _ hh)) nofun
  | close hh =>
    refine Entitled.idle (h.reslot fun ref sl hsl => ?_) nofun
    obtain ⟨sl', hsl', _, hid⟩ := slots_disconnect _ hsl
    exact ⟨sl', hsl', hid⟩
  | @call c reqId workerId fwd k hh =>
    refine h.goto fun call phase heq ref href => ?_
    cases heq
    exact h.table workerId ref (Option.mem_toList.mp href)
  | check hh hsl hconn => exact h.keep hh fun _ href => href
  | insert hh => exact h.keep hh fun _ href => href
  | sendCommand hh hsl => exact h.keep hh fun _ href => href
  | sendLost hh => exact h.keep hh nofun
  | wake hh hpd hdone => exact h.keep hh nofun
  | _ => exact h.idle nofun

theorem Initial.named (h : Initial s) : s.Named := by
  obtain ⟨limits, rng, rfl⟩ := h
  refine ⟨fun text ref href => ?_, nofun⟩
  have href : (∅ : StrMap ℕ)[text]? = some ref := href
  rw [Std.ExtTreeMap.getElem?_empty] at href
  cases href

end Server

/-! ## What a request forwards -/

namespace Ctl

section Wp

variable {α β γ : Type} {Φ : (e : Effect) → (e.Res → γ → Prop) → γ → Prop}
  {Q : Except Error α → γ → Prop} {g : γ}

/-- `Prog.wp` of a handler. -/
def wp (Φ : (e : Effect) → (e.Res → γ → Prop) → γ → Prop) (h : Ctl α)
    (Q : Except Error α → γ → Prop) (g : γ) : Prop := h.run.wp Φ Q g

theorem wp_pure (a : α) : wp Φ (pure a) Q g = Q (.ok a) g := rfl

theorem wp_locked_bind {sec : Section} {k : sec.Res → Ctl α} :
    wp Φ (locked sec >>= k) Q g = Φ (.locked sec) (fun r => wp Φ (k r) Q) g := rfl

theorem wp_forward_bind {workerId : Bytes} {fwd : Message} {k : Message → Ctl α} :
    wp Φ (forwardToWorker workerId fwd >>= k) Q g =
      Φ .nextReq (fun n => Φ (.forward n workerId fwd) fun r => wp Φ (k r) Q) g := rfl

theorem wp_orThrow_bind {r : Except Error β} {k : β → Ctl α}
    (hok : ∀ b, r = .ok b → wp Φ (k b) Q g) (herror : ∀ e, r = .error e → Q (.error e) g) :
    wp Φ (orThrow r >>= k) Q g := by
  cases r with
  | ok b => exact hok b rfl
  | error e => exact herror e rfl

theorem wp_ite {p : Prop} [Decidable p] {h h' : Ctl α} (hthen : p → wp Φ h Q g)
    (helse : ¬ p → wp Φ h' Q g) : wp Φ (if p then h else h') Q g := by
  split
  · exact hthen ‹_›
  · exact helse ‹_›

end Wp

end Ctl

/-- The requests that carry a fence. -/
def Fenced (req : Message) : Prop :=
  req.type = .ctlLoad ∨ req.type = .ctlActivate ∨ req.type = .ctlMigrate

/-- The command carries the fence of the request. -/
def Carries (req cmd : Message) : Prop :=
  ∃ fence, decodeFence req.payload = .ok fence ∧ cmd.payload = encodeFence fence

/-- The fence is forwarded to the worker of the text. The ghost state says whether the command was
acknowledged. -/
def following (req : Message) : (e : Effect) → (e.Res → Bool → Prop) → Bool → Prop
  | .locked _, K, acked => ∀ r, K r acked
  | .nextReq, K, acked => ∀ n, K n acked
  | .forward _ workerId fwd, K, _ =>
    workerId = req.text2 ∧ Carries req fwd ∧ ∀ r : Message, K r r.ok
  | .shutdown, K, acked => ∀ r, K r acked

/-- What is left of the request answers ok only if its command is acknowledged. -/
def Following (req : Message) (acked : Bool) (p : Prog Effect Effect.Res Message) : Prop :=
  p.wp (following req) (fun out acked => out.ok = true → acked = true) acked

section Handlers

variable {req : Message}

/-- The answer of a handler, and of `process_control`, is ok only after an acknowledgement. -/
def OkAcked (r : Except Error Message) (acked : Bool) : Prop :=
  ∀ out, r = .ok out → out.ok = true → acked = true

namespace Ctl

theorem following_load : wp (following req) (load req) OkAcked false := by
  unfold load
  refine wp_orThrow_bind (fun fence hfence => ?_) fun e _ => nofun
  rw [wp_locked_bind]
  intro pre
  refine wp_ite (fun _ => ?_) fun _ => ?_
  · rintro out hout
    cases hout
    nofun
  rw [wp_locked_bind]
  intro created
  refine wp_orThrow_bind (fun inst _ => ?_) fun e _ => nofun
  rw [wp_forward_bind]
  intro n
  refine ⟨rfl, ⟨fence, hfence, rfl⟩, fun ack => wp_ite (fun hok => ?_) fun _ => ?_⟩
  · intro _ _ out _ _
    exact hok
  · rintro out hout
    cases hout
    nofun

theorem following_activate : wp (following req) (activate req) OkAcked false := by
  unfold activate
  refine wp_orThrow_bind (fun fence hfence => ?_) fun e _ => nofun
  rw [wp_locked_bind]
  intro pre
  refine wp_ite (fun _ => ?_) fun _ => ?_
  · rintro out hout
    cases hout
    nofun
  rw [wp_forward_bind]
  intro n
  refine ⟨rfl, ⟨fence, hfence, rfl⟩, fun ack => wp_ite (fun hok => ?_) fun _ => ?_⟩
  · rw [wp_locked_bind]
    intro bound
    refine wp_orThrow_bind (fun chk _ => ?_) fun e _ => nofun
    intro out _ _
    exact hok
  · rintro out hout
    cases hout
    nofun

theorem following_migrate : wp (following req) (migrate req) OkAcked false := by
  unfold migrate
  refine wp_orThrow_bind (fun fence hfence => ?_) fun e _ => nofun
  rw [wp_forward_bind]
  intro n
  refine ⟨rfl, ⟨fence, hfence, rfl⟩, fun ack => ?_⟩
  rintro out hout hok
  cases hout
  exact hok

end Ctl

theorem following_mono (e : Effect) (K K' : e.Res → Bool → Prop) (acked : Bool)
    (hK : ∀ r acked, K r acked → K' r acked) (h : following req e K acked) :
    following req e K' acked := by
  cases e with
  | locked sec => exact fun r => hK r _ (h r)
  | nextReq => exact fun n => hK n _ (h n)
  | forward reqId workerId fwd => exact ⟨h.1, h.2.1, fun r => hK r _ (h.2.2 r)⟩
  | shutdown => exact fun r => hK r _ (h r)

theorem following_processControl (h : Fenced req) : Following req false (processControl req) := by
  have hhandler : (Ctl.dispatch req).run.wp (following req) OkAcked false := by
    rcases h with h | h | h
    · rw [Ctl.dispatch_load h]
      exact Ctl.following_load
    · rw [Ctl.dispatch_activate h]
      exact Ctl.following_activate
    · rw [Ctl.dispatch_migrate h]
      exact Ctl.following_migrate
  unfold Following processControl
  rw [Prog.wp_bind]
  refine Prog.wp_mono following_mono (fun r acked hr => ?_) hhandler
  cases r with
  | ok out => exact hr out rfl
  | error e => nofun

end Handlers

/-! ## The handler of the request -/

/-- A command with the fence of `req`, forwarded by `c` to the worker of its text, was
acknowledged. -/
def Acked (H : History) (c : ℕ) (req : Message) : Prop :=
  ∃ r ∈ H.returned, r.call.conn = c ∧ r.call.workerId = req.text2 ∧ Carries req r.call.fwd ∧
    r.result.ok = true

/-- The handler serves `req`, or has answered it. -/
def Handler.Follows (req : Message) (H : History) (c : ℕ) : Handler → Prop
  | reading none => True
  | returned none => True
  | serving p => ∃ acked, Following req acked p ∧ (acked = true → Acked H c req)
  | calling call _ =>
    call.workerId = req.text2 ∧ Carries req call.fwd ∧ ∀ r, Following req r.ok (call.k r)
  | _ => False

theorem Handler.Follows.grows {req : Message} {H H' : History} {c : ℕ} {h : Handler}
    (hret : ∀ r ∈ H.returned, r ∈ H'.returned) (hf : h.Follows req H c) : h.Follows req H' c := by
  cases h with
  | serving p =>
    obtain ⟨acked, hp, hacked⟩ := hf
    refine ⟨acked, hp, fun ha => ?_⟩
    obtain ⟨r, hr, hcall⟩ := hacked ha
    exact ⟨r, hret r hr, hcall⟩
  | reading slot =>
    cases slot with
    | none => trivial
    | some slot => exact hf
  | returned slot =>
    cases slot with
    | none => trivial
    | some slot => exact hf
  | _ => exact hf

namespace Server

def Follows (s : Server) (c : ℕ) (req : Message) : Prop :=
  ∃ h, s.handlers c = some h ∧ h.Follows req s.history c

/-- A step in which `c` does not go on to another request. -/
def Continues (c : ℕ) (s : Server) (a : Action) (s' : Server) : Prop :=
  Step s a s' ∧ a ≠ .read c

/-- The step sends the command `cmd` of the request that `c` serves to the worker of the slot. -/
def Sends (c : ℕ) (sl : WorkerSlot) (cmd : Message) (s : Server) (a : Action) : Prop :=
  a = .send c true ∧ ∃ call slot pend, s.handlers c = some (.calling call (.sending slot pend)) ∧
    s.slots slot = some sl ∧ cmd = call.command

section Moves

variable {s s' : Server} {c : ℕ} {req : Message} {a : Action}

theorem Move.returned (hm : Move s a s') :
    ∀ r ∈ s.history.returned, r ∈ s'.history.returned := by
  cases hm with
  | checkFailed hh => exact fun r hr => List.mem_cons_of_mem _ hr
  | unsend hh => exact fun r hr => List.mem_cons_of_mem _ hr
  | erase hh => exact fun r hr => List.mem_cons_of_mem _ hr
  | _ => exact fun r hr => hr

theorem follows_goto {h : Handler} (hf : h.Follows req s.history c) : (s.goto c h).Follows c req :=
  ⟨h, goto_self s c h, hf⟩

theorem follows_answerCall {call : Call} (r : Message) (hworker : call.workerId = req.text2)
    (hfwd : Carries req call.fwd) (hk : ∀ r, Following req r.ok (call.k r)) :
    (s.answerCall c call r).Follows c req :=
  follows_goto ⟨r.ok, hk r, fun hok => ⟨_, List.mem_cons_self .., rfl, hworker, hfwd, hok⟩⟩

theorem Follows.move (hm : Move s a s') (ha : a ≠ .read c) (h : s.Follows c req) :
    s'.Follows c req := by
  obtain ⟨hd, hc, hf⟩ := h
  by_cases hconn : c = a.conn
  · subst hconn
    have hhd {hd' : Handler} (hh : s.handlers a.conn = some hd') :
        hd'.Follows req s.history a.conn := Option.some.inj (hc.symm.trans hh) ▸ hf
    cases hm with
    | accept hnew => cases hc.symm.trans hnew
    | peer hh => exact ⟨hd, hc, hf⟩
    | reply hcmd hmsg => exact ⟨hd, hc, hf.grows fun _ hr => hr⟩
    | undecodable hh _ _ | register hh _ _ _ _ _ | registerThrew hh _ | readReply hh _ _ _ _
    | readIgnored hh _ _ _ _ | readRequest hh _ _ _ => exact absurd rfl ha
    | hangup hh => exact follows_goto trivial
    | answer hh => exact follows_goto trivial
    | answerLost hh => exact follows_goto trivial
    | sendCommand hh hsl =>
      have hcall := hhd hh
      exact follows_goto hcall
    | sendLost hh =>
      have hcall := hhd hh
      exact follows_goto hcall
    | locked hh =>
      obtain ⟨acked, hp, hacked⟩ := hhd hh
      exact follows_goto ⟨acked, hp _, hacked⟩
    | nextReq hh =>
      obtain ⟨acked, hp, hacked⟩ := hhd hh
      exact follows_goto ⟨acked, hp _, hacked⟩
    | shutdown hh =>
      obtain ⟨acked, hp, hacked⟩ := hhd hh
      exact follows_goto ⟨acked, hp _, hacked⟩
    | call hh =>
      obtain ⟨acked, ⟨hworker, hfwd, hk⟩, _⟩ := hhd hh
      exact follows_goto ⟨hworker, hfwd, hk⟩
    | checkFailed hh =>
      obtain ⟨hworker, hfwd, hk⟩ := hhd hh
      exact follows_answerCall _ hworker hfwd hk
    | check hh hsl hconnected =>
      have hcall := hhd hh
      exact follows_goto hcall
    | insert hh =>
      have hcall := hhd hh
      exact follows_goto hcall
    | unsend hh =>
      obtain ⟨hworker, hfwd, hk⟩ := hhd hh
      exact follows_answerCall _ hworker hfwd hk
    | wake hh hpd hdone =>
      have hcall := hhd hh
      exact follows_goto hcall
    | erase hh =>
      obtain ⟨hworker, hfwd, hk⟩ := hhd hh
      exact follows_answerCall _ hworker hfwd hk
    | hangupWorker hh | ack hh | enterSlot hh | enterFabric hh _ | enterThrew hh | find hh _
    | findNone hh | settle hh | close hh | sweep hh | down hh _ => exact (hhd hh).elim
  · exact ⟨hd, (hm.handlers hconn).trans hc, hf.grows hm.returned⟩

end Moves

end Server

/-! ## Where commands go -/

/-- `w` acknowledged the command of `p`: it was sent to a worker entered by a text of `w`, over
whose connection the reply came. -/
def AckedBy (H : History) (p : Replied) (w : WorkerId) : Prop :=
  ∃ text, mustParse text = .ok w ∧ ⟨p.conn, text⟩ ∈ H.tabled ∧ ⟨p.conn, text, p.cmd⟩ ∈ H.sent

namespace Server

/-- The worker that acknowledged the command of `p` is the one that the text names, and no other. -/
theorem ackedBy_iff {W : ℕ → Prop} {H : History} (hled : Ledger W H) {call : Called} {p : Replied}
    (hp : Answers H call p) (w : WorkerId) :
    AckedBy H p w ↔ mustParse call.workerId = .ok w := by
  obtain ⟨_, hcmd, htabled, hsent⟩ := hp
  rw [← hcmd] at hsent
  constructor
  · rintro ⟨text, hw, _, hsent'⟩
    -- a command is sent once
    have hsame := List.inj_on_of_nodup_map hled.sent hsent' hsent rfl
    rwa [(Sent.mk.inj hsame).2.1] at hw
  · exact fun hw => ⟨call.workerId, hw, htabled, hsent⟩

section Requests

variable {s₀ s : Server} {c : ℕ} {req : Message} {pre path : List (Action × Server)}

theorem follows_of_reading (hreq : Fenced req)
    (hc : s.handlers c = some (.serving (processControl req))) : s.Follows c req :=
  ⟨_, hc, false, following_processControl hreq, nofun⟩

/-- What holds of every state that a run reaches. -/
structure Kept (s : Server) : Prop where
  resolved : s.Resolved
  sessions : s.Sessions
  named : s.Named

theorem Kept.step {s' : Server} {a : Action} (hs : Step s a s') (h : s.Kept) : s'.Kept := by
  have hm := act_move hs
  exact ⟨h.resolved.move hm, h.sessions.move hm h.resolved, h.named.move hm h.resolved h.sessions⟩

theorem Initial.kept (h : Initial s) : s.Kept := ⟨h.resolved, h.sessions, h.named⟩

/-- A command of the request goes to a worker of its text. -/
theorem Follows.sends (h : s.Follows c req) (hkept : s.Kept) {sl : WorkerSlot} {cmd : Message}
    {a : Action} (hsend : Sends c sl cmd s a) :
    Carries req cmd ∧ mustParse req.text2 = .ok sl.id := by
  obtain ⟨_, call, slot, pend, hc, hsl, rfl⟩ := hsend
  obtain ⟨hd, hh, hf⟩ := h
  cases hc.symm.trans hh
  obtain ⟨hworker, hfwd, _⟩ := hf
  obtain ⟨sl', hsl', hid⟩ := hkept.named.calls c call _ hc slot (List.mem_singleton_self _)
  obtain rfl : sl = sl' := Option.some.inj (hsl.symm.trans hsl')
  exact ⟨hfwd, hworker ▸ hid⟩

/-- If the request is answered ok, the worker of its text acknowledged its command. -/
theorem Follows.acked (h : s.Follows c req) {W : ℕ → Prop} (hcorr : Correlates W s)
    {out : Message} (hc : s.handlers c = some (.serving (.done out))) (hok : out.ok = true) :
    ∃ p ∈ s.history.replied, p.reply.ok = true ∧ Carries req p.cmd ∧
      ∀ w, AckedBy s.history p w ↔ mustParse req.text2 = .ok w := by
  obtain ⟨hd, hh, hf⟩ := h
  cases hc.symm.trans hh
  obtain ⟨acked, hdone, hacked⟩ := hf
  obtain ⟨r, hr, _, hworker, ⟨fence, hfence, hfwd⟩, hrok⟩ := hacked (hdone hok)
  rcases hcorr.answered r hr with herror | ⟨p, hp, hresult⟩
  · rcases herror with herror | herror | herror <;> (rw [herror] at hrok; cases hrok)
  · refine ⟨p, hp.1, hresult ▸ hrok, ⟨fence, hfence, ?_⟩, fun w => ?_⟩
    · rw [hp.2.1]
      exact hfwd
    · rw [ackedBy_iff hcorr.ledger hp, hworker]

/-- A load or an activation sends its command to the worker of its fence exactly when its text is
one of that worker's id. If workers answer their own commands only, and it is answered ok, then the
worker that its text names, and no other, acknowledged the command. -/
theorem sent_to_fenced_iff (h₀ : Initial s₀) (h : Run.Each Step s₀ (pre ++ (.read c, s) :: path))
    (hc : s.handlers c = some (.serving (processControl req))) (hsame : ∀ x ∈ path, x.1 ≠ .read c)
    (hreq : req.type = .ctlLoad ∨ req.type = .ctlActivate) :
    Run.Each (fun u a _ => ∀ sl cmd, Sends c sl cmd u a →
      ∃ fence, decodeFence req.payload = .ok fence ∧ cmd.payload = encodeFence fence ∧
        (sl.id = fence.worker ↔ mustParse req.text2 = .ok fence.worker)) s path ∧
    ∀ W, Run.Each (fun u a _ => Honest W u a) s₀ (pre ++ (.read c, s) :: path) →
      (∀ x ∈ pre ++ (.read c, s) :: path, x.2.history.issued.length < 2 ^ 64) →
      ∀ x ∈ path, ∀ out, x.2.handlers c = some (.serving (.done out)) → out.ok = true →
        ∃ p ∈ x.2.history.replied, p.reply.ok = true ∧ Carries req p.cmd ∧
          ∀ w, AckedBy x.2.history p w ↔ mustParse req.text2 = .ok w := by
  have hfenced : Fenced req := hreq.imp_right .inl
  have hkept : s.Kept := h.preserves (P := Kept) (fun hs hk => hk.step hs) h₀.kept (.read c, s)
    (by simp)
  have hpath : Run.Each (Continues c) s path := h.tail.and (Run.each_label.mpr hsame)
  have hinv {u v : Server} {a : Action} (hs : Continues c u a v) (hI : u.Kept ∧ u.Follows c req) :
      v.Kept ∧ v.Follows c req := ⟨hI.1.step hs.1, hI.2.move (act_move hs.1) hs.2⟩
  have hstart := follows_of_reading hfenced hc
  constructor
  · have hfollows := hpath.with_invariant (I := fun u => u.Kept ∧ u.Follows c req) hinv
      ⟨hkept, hstart⟩
    refine hfollows.imp ?_
    rintro u a v ⟨⟨hk, hf⟩, _⟩ sl cmd hsend
    obtain ⟨⟨fence, hfence, hfwd⟩, hid⟩ := hf.sends hk hsend
    refine ⟨fence, hfence, hfwd, ?_⟩
    rw [hid, Except.ok.injEq]
  · intro W hhonest hissued x hx out hdone hok
    have hx' : x ∈ pre ++ (.read c, s) :: path := by simp [hx]
    have hfollows := hpath.preserves (P := fun u => u.Kept ∧ u.Follows c req) hinv ⟨hkept, hstart⟩
    exact (hfollows x hx).2.acked (correlates_of_honest h₀ h hhonest hissued x hx') hdone hok

end Requests

/-! ### A load that is sent -/

open Fabric (sampleWorker sampleFence)

/-- The command that a handler is about to send, and the slot of the worker that it goes to. -/
def sending (s : Server) (c : ℕ) : Option (WorkerSlot × Message) :=
  match s.handlers c with
  | some (.calling call (.sending slot _)) => (s.slots slot).map fun sl => (sl, call.command)
  | _ => none

theorem sends_of_sending {s : Server} {c : ℕ} {sl : WorkerSlot} {cmd : Message}
    (h : s.sending c = some (sl, cmd)) : Sends c sl cmd s (.send c true) := by
  unfold sending at h
  split at h
  · rename_i call slot pend hh
    obtain ⟨sl', hsl, hcmd⟩ := Option.map_eq_some_iff.mp h
    cases hcmd
    exact ⟨rfl, call, slot, pend, hh, hsl, rfl⟩
  · cases h

/-- The handler of `c`, a client's, is about to read the request of the frame. -/
def about (s : Server) (c : ℕ) (frame : Bytes) : Bool :=
  !s.terminated && s.inbound c = [frame] && match s.handlers c with
    | some (.reading none) => true
    | _ => false

theorem read_of_about {s s' : Server} {c : ℕ} {req : Message}
    (habout : s.about c (encodeMessage req) = true)
    (hmsg : decodeMessage (encodeMessage req) = .ok req) (htype : req.type ≠ .wkRegister)
    (h : Step s (.read c) s') : s'.handlers c = some (.serving (processControl req)) := by
  unfold about at habout
  split at habout
  · rename_i hh
    simp only [Bool.and_true, Bool.and_eq_true, Bool.not_eq_true', decide_eq_true_eq] at habout
    rw [← Option.some.inj ((act_read habout.1 hh habout.2).symm.trans h)]
    unfold receive
    rw [hmsg]
    dsimp only
    rw [if_neg htype]
    exact goto_self ..
  · simp at habout

/-- After `pre`, `req` is read, and after `post`, its command is sent to `w`. -/
def sendsTo (pre post : List Action) (c : ℕ) (req : Message) (w : WorkerId) : Bool :=
  (Run.tryExec act pre start).any fun s₁ => s₁.about c (encodeMessage req) &&
    (s₁.act (.read c)).any fun s => (Run.tryExec act post s).any fun u =>
      (u.sending c).any (fun x => x.1.id = w) && (u.act (.send c true)).isSome

theorem exists_sending (pre post : List Action) (c : ℕ) (req : Message) (w : WorkerId)
    (hrun : sendsTo pre post c req w = true) (hmsg : decodeMessage (encodeMessage req) = .ok req)
    (htype : req.type ≠ .wkRegister) (hpost : Action.read c ∉ post) :
    ∃ before s path u v sl cmd, Run.Each Step start (before ++ (.read c, s) :: path) ∧
      s.handlers c = some (.serving (processControl req)) ∧ (∀ x ∈ path, x.1 ≠ .read c) ∧
      (∀ R : Server → Action → Server → Prop, Run.Each R s path → R u (.send c true) v) ∧
      Sends c sl cmd u (.send c true) ∧ sl.id = w := by
  obtain ⟨s₁, hs₁, hrun⟩ := (Option.any_eq_true _ _).mp hrun
  obtain ⟨habout, hrun⟩ := Bool.and_eq_true_iff.mp hrun
  obtain ⟨s, hread, hrun⟩ := (Option.any_eq_true _ _).mp hrun
  obtain ⟨u, hu, hrun⟩ := (Option.any_eq_true _ _).mp hrun
  obtain ⟨hsending, hsend⟩ := Bool.and_eq_true_iff.mp hrun
  obtain ⟨⟨sl, cmd⟩, hsending, hid⟩ := (Option.any_eq_true _ _).mp hsending
  obtain ⟨v, hv⟩ := Option.isSome_iff_exists.mp hsend
  obtain ⟨before, hbefore, _, _⟩ := (Run.Steps.of_tryExec hs₁).exists_path_to hread
  obtain ⟨path, hpath, hlabels, hto⟩ := (Run.Steps.of_tryExec hu).exists_path_to hv
  refine ⟨before, s, path ++ [(.send c true, v)], u, v, sl, cmd, .join hpath hbefore,
    read_of_about habout hmsg htype hread, ?_, hto, sends_of_sending hsending,
    of_decide_eq_true hid⟩
  intro x hx heq
  rcases List.mem_append.mp hx with hx | hx
  · rw [← hlabels, ← heq] at hpost
    exact hpost (List.mem_map_of_mem hx)
  · rw [List.mem_singleton.mp hx] at heq
    cases heq

/-- Two workers join, and the sample adapter is registered over a third connection, which then gets
the frame of `req`. -/
def beforeRequest (req : Message) : List Action :=
  joins 0 workerRegistration ++ joins 1 otherRegistration ++
    [.accept 2, .peer 2 (encodeMessage adapterRequest), .read 2, .advance 2, .send 2 true,
      .peer 2 (encodeMessage req)]

/-- The sections and the steps of `forward_to_worker` up to its send. -/
def untilSent : List Action := List.replicate 6 (.advance 2)

theorem sent_to_fenced_iff_sample :
    ∃ s path u v sl cmd, s.handlers 2 = some (.serving (processControl loadRequest)) ∧
      Run.Each Step s path ∧ Step u (.send 2 true) v ∧ Sends 2 sl cmd u (.send 2 true) ∧
      sl.id = sampleFence.worker := by
  obtain ⟨before, s, path, u, v, sl, cmd, hpath, hc, hsame, hto, hsend, _⟩ :=
    exists_sending (beforeRequest loadRequest) untilSent 2 loadRequest sampleWorker.id
      (by decide +kernel) (by decide +kernel) (by decide) (by simp [untilSent])
  have hsent := (sent_to_fenced_iff start_initial hpath hc hsame (.inl rfl)).1
  obtain ⟨fence, hfence, _, hiff⟩ := hto _ hsent sl cmd hsend
  obtain rfl : fence = sampleFence := Except.ok.inj (hfence.symm.trans (by decide +kernel))
  exact ⟨s, path, u, v, sl, cmd, hc, hpath.tail, hto _ hpath.tail, hsend,
    hiff.mpr (by decide +kernel)⟩

/-- The text names another worker than the fence. -/
def misdirectedRequest : Message := { loadRequest with text2 := otherWorker.str }

theorem sent_to_fenced_counterexample :
    ∃ s₀ before s path c req fence, Initial s₀ ∧
      Run.Each Step s₀ (before ++ (.read c, s) :: path) ∧
      s.handlers c = some (.serving (processControl req)) ∧ (∀ x ∈ path, x.1 ≠ .read c) ∧
      req.type = .ctlLoad ∧ decodeFence req.payload = .ok fence ∧
      ¬ Run.Each (fun u a _ => ∀ sl cmd, Sends c sl cmd u a → sl.id = fence.worker) s path := by
  obtain ⟨before, s, path, u, v, sl, cmd, hpath, hc, hsame, hto, hsend, hid⟩ :=
    exists_sending (beforeRequest misdirectedRequest) untilSent 2 misdirectedRequest otherWorker
      (by decide +kernel) (by decide +kernel) (by decide) (by simp [untilSent])
  refine ⟨start, before, s, path, 2, misdirectedRequest, sampleFence, start_initial, hpath, hc,
    hsame, rfl, by decide +kernel, fun hsent => ?_⟩
  have hworker := hto _ hsent sl cmd hsend
  rw [hid] at hworker
  exact absurd hworker (by decide +kernel)

end Server

end Coordinator

end AdapterFabric
