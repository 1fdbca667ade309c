import AdapterFabric.Coordinator.Ledger
import AdapterFabric.Coordinator.Teardown

/-!
# AdapterFabric.Coordinator.Correlation

Every call of `forward_to_worker` returns its own reply.

* `Correlates.move`: the steps of the handlers, the workers and the clients keep the ledger.
* `reply_correlation`: so, if workers reply once to each command with its id, every call returns an
  error of the coordinator or the reply to exactly its command, and no reply is returned twice.
-/

namespace AdapterFabric

namespace Coordinator

namespace Section

/-- The sections of `process_control` leave `next_req_` alone. -/
theorem run_nextReq (sec : Section) (s : Shared) : (sec.run s).2.nextReq = s.nextReq := by
  cases sec with
  | pin text =>
    simp only [run]
    split <;> rfl
  | unpin text =>
    simp only [run]
    split <;> rfl
  | _ => rfl

end Section

namespace Server

structure Correlates (W : ℕ → Prop) (s : Server) : Prop where
  count : s.shared.nextReq = UInt64.ofNat (s.history.issued.length + 1)
  ledger : Ledger W s.history
  wires : Wires W s.history s.inbound s.outbound
  tables : Tables W s.slots s.history s.workers s.pending s.pends s.nextRef
  handlers : AllSound W s.slots s.history s.handlers
  answered : ∀ r ∈ s.history.returned,
    CoordinatorError r.result ∨ ∃ p, Answers s.history r.call p ∧ r.result = p.reply

/-- The workers answer with the id of the command, and send nothing else with an id. Nothing but
workers registers. -/
def Honest (W : ℕ → Prop) (s : Server) : Action → Prop
  | .peer c frame => ∀ msg, decodeMessage frame = .ok msg →
    (msg.type = .wkRegister → W c) ∧ (W c → msg.type = .wkRegister ∨ msg.reqId = 0)
  | .reply c i frame => ∀ cmd msg, (s.outbound c)[i]? = some cmd →
    decodeMessage frame = .ok msg → msg.reqId = cmd.reqId
  | _ => True

instance (W : ℕ → Prop) [DecidablePred W] (s : Server) (a : Action) : Decidable (Honest W s a) :=
  match a with
  | .peer c frame =>
    match h : decodeMessage frame with
    | .error _ => .isTrue fun _ hmsg => nomatch h.symm.trans hmsg
    | .ok msg =>
      decidable_of_iff
        ((msg.type = .wkRegister → W c) ∧ (W c → msg.type = .wkRegister ∨ msg.reqId = 0))
        ⟨fun hm _ hmsg => Except.ok.inj (h.symm.trans hmsg) ▸ hm, fun hm => hm msg h⟩
  | .reply c i frame =>
    match hcmd : (s.outbound c)[i]?, h : decodeMessage frame with
    | none, _ => .isTrue fun _ _ hsome => nomatch hcmd.symm.trans hsome
    | some _, .error _ => .isTrue fun _ _ _ hmsg => nomatch h.symm.trans hmsg
    | some cmd, .ok msg =>
      decidable_of_iff (msg.reqId = cmd.reqId)
        ⟨fun hid _ _ hsome hmsg => Option.some.inj (hcmd.symm.trans hsome) ▸
          Except.ok.inj (h.symm.trans hmsg) ▸ hid, fun hm => hm cmd msg hcmd h⟩
  | .accept _ => .isTrue trivial
  | .hangup _ => .isTrue trivial
  | .read _ => .isTrue trivial
  | .send _ _ => .isTrue trivial
  | .advance _ => .isTrue trivial

section Steps

variable {W : ℕ → Prop} {s s' : Server} {c : ℕ}

theorem Correlates.answers (h : Correlates W s) {H : History} (hg : Grows s.history H c) :
    ∀ r ∈ s.history.returned,
      CoordinatorError r.result ∨ ∃ p, Answers H r.call p ∧ r.result = p.reply := by
  intro r hr
  rcases h.answered r hr with herror | ⟨p, ⟨hp, hcmd, haddr⟩, hresult⟩
  · exact .inl herror
  · exact .inr ⟨p, ⟨hg.replied p hp, hcmd, haddr.grows hg⟩, hresult⟩

theorem Correlates.sound (h : Correlates W s) {hd : Handler} (hh : s.handlers c = some hd) :
    hd.Sound W s.slots s.history c := h.handlers c hd hh

theorem Correlates.goto (h : Correlates W s) {hd : Handler}
    (hs : hd.Sound W s.slots s.history c) : Correlates W (s.goto c hd) :=
  ⟨h.count, h.ledger, h.wires, h.tables, h.handlers.step h.ledger (.refl _ _) (.refl _) hs,
    h.answered⟩

theorem Correlates.shared (h : Correlates W s) {shared : Shared}
    (hnext : shared.nextReq = s.shared.nextReq) : Correlates W { s with shared } :=
  ⟨hnext.trans h.count, h.ledger, h.wires, h.tables, h.handlers, h.answered⟩

theorem Correlates.consume (h : Correlates W s) {frame : Bytes} {rest : List Bytes}
    (hin : s.inbound c = frame :: rest) :
    Correlates W { s with inbound := Function.update s.inbound c rest } :=
  ⟨h.count, h.ledger, h.wires.consume hin, h.tables, h.handlers, h.answered⟩

theorem Correlates.newSlot (h : Correlates W s) (hfresh : s.slots s.nextRef = none)
    (sl : WorkerSlot) :
    Correlates W { s with
      slots := Function.update s.slots s.nextRef (some sl), nextRef := s.nextRef + 1 } :=
  ⟨h.count, h.ledger, h.wires, h.tables.newSlot hfresh sl,
    h.handlers.grows h.ledger (.refl _) (.newSlot hfresh sl), h.answered⟩

theorem Correlates.disconnect (h : Correlates W s) (ref : ℕ) :
    Correlates W { s with
      slots := Function.update s.slots ref ((s.slots ref).map WorkerSlot.disconnect) } :=
  ⟨h.count, h.ledger, h.wires, h.tables.grows (.refl s.history 0) rfl (.disconnect s.slots ref),
    h.handlers.grows h.ledger (.refl _) (.disconnect s.slots ref), h.answered⟩

theorem Correlates.erasePending (h : Correlates W s) (n : UInt64) :
    Correlates W { s with pending := s.pending.erase n } :=
  ⟨h.count, h.ledger, h.wires, h.tables.erase n, h.handlers, h.answered⟩

theorem Correlates.settle (h : Correlates W s) {msg : Message} {pend : ℕ}
    (hreply : ∃ p ∈ s.history.replied, p.reply = msg)
    (hentry : ⟨msg.reqId, pend⟩ ∈ s.history.inserted) :
    Correlates W { s with
      pends := Function.update s.pends pend (some { done := true, result := msg }) } :=
  ⟨h.count, h.ledger, h.wires, h.tables.settle h.ledger hreply hentry, h.handlers, h.answered⟩

theorem Correlates.abortAll (h : Correlates W s) (refs : List ℕ) :
    Correlates W { s with pends := abortAll refs s.pends } :=
  ⟨h.count, h.ledger, h.wires, h.tables.abortAll refs, h.handlers, h.answered⟩

theorem Correlates.peer (h : Correlates W s) {frame : Bytes}
    (hhonest : Honest W s (.peer c frame)) :
    Correlates W { s with inbound := Function.update s.inbound c (s.inbound c ++ [frame]) } := by
  refine ⟨h.count, h.ledger, h.wires.arrive fun msg hmsg => ?_, h.tables, h.handlers, h.answered⟩
  obtain ⟨hreg, hworker⟩ := hhonest msg hmsg
  exact ⟨hreg, fun hw => (hworker hw).imp_right .inl⟩

theorem Correlates.reply (h : Correlates W s) {i : ℕ} {frame : Bytes} {cmd msg : Message}
    (hcmd : (s.outbound c)[i]? = some cmd) (hmsg : decodeMessage frame = .ok msg)
    (hhonest : Honest W s (.reply c i frame)) :
    Correlates W { s with
      inbound := Function.update s.inbound c (s.inbound c ++ [frame])
      outbound := Function.update s.outbound c ((s.outbound c).eraseIdx i)
      history := { s.history with replied := ⟨c, cmd, msg⟩ :: s.history.replied } } := by
  obtain ⟨hsent, hopen⟩ := h.wires.commands c cmd (List.mem_of_getElem? hcmd)
  have hg (d : ℕ) : Grows s.history
      { s.history with replied := ⟨c, cmd, msg⟩ :: s.history.replied } d :=
    ⟨fun _ h => h, fun _ h => h, fun _ h => h, fun _ h => List.mem_cons_of_mem _ h, fun _ h => h,
      fun _ => .inl, fun _ => .inl⟩
  exact ⟨h.count, h.ledger.reply (hhonest cmd msg hcmd hmsg) hsent hopen,
    h.wires.reply h.ledger hcmd hmsg, h.tables.grows (hg c) rfl (.refl _),
    h.handlers.grows h.ledger hg (.refl _), h.answers (hg c)⟩

/-! ### Registrations -/

theorem Correlates.enterSlot (h : Correlates W s) {msg : Message} {slot : ℕ}
    (hh : s.handlers c = some (.inserting msg slot)) :
    Correlates W ({ s with
      workers := s.workers.insert msg.text slot
      history := { s.history with tabled := ⟨c, msg.text⟩ :: s.history.tabled } }.goto c
      (.registering msg slot)) := by
  obtain ⟨hw, sl, hsl, hsock⟩ := h.sound hh
  have hg : Grows s.history
      { s.history with tabled := ⟨c, msg.text⟩ :: s.history.tabled } c :=
    ⟨fun _ h => h, fun _ h => List.mem_cons_of_mem _ h, fun _ h => h, fun _ h => h, fun _ h => h,
      fun _ => .inl, fun _ => .inl⟩
  refine ⟨h.count, h.ledger.congr rfl rfl rfl rfl rfl, h.wires.congr rfl rfl,
    (h.tables.grows hg rfl (.refl _)).enterWorker ⟨sl, hsl, hsock ▸ hw, ?_⟩,
    h.handlers.step h.ledger hg (.refl _) hw, h.answers hg⟩
  rw [hsock]
  exact List.mem_cons_self ..

theorem Correlates.enterFabric (h : Correlates W s) {msg : Message} {slot : ℕ} {r : Registered}
    {shared : Shared} (hnext : shared.nextReq = s.shared.nextReq)
    (hh : s.handlers c = some (.registering msg slot)) :
    Correlates W ({ s with
      shared
      history := { s.history with registered := r :: s.history.registered } }.goto c
      (.acking slot)) := by
  have hw : W c := h.sound hh
  have hg : Grows s.history { s.history with registered := r :: s.history.registered } c :=
    ⟨fun _ h => h, fun _ h => h, fun _ h => h, fun _ h => h, fun _ h => h, fun _ => .inl,
      fun _ => .inl⟩
  exact ⟨hnext.trans h.count, h.ledger.congr rfl rfl rfl rfl rfl, h.wires.congr rfl rfl,
    h.tables.grows hg rfl (.refl _), h.handlers.step h.ledger hg (.refl _) hw,
    h.answers hg⟩

/-! ### Calls -/

theorem Correlates.nextReq (h : Correlates W s)
    {k : UInt64 → Interleave.Prog Effect Effect.Res Message}
    (hbound : s.history.issued.length + 1 < 2 ^ 64)
    (hh : s.handlers c = some (.serving (.perform .nextReq k))) :
    Correlates W ({ s with
      shared := { s.shared with nextReq := s.shared.nextReq + 1 }
      history := { s.history with
        issued := ⟨c, s.shared.nextReq⟩ :: s.history.issued } }.goto c
      (.serving (k s.shared.nextReq))) := by
  obtain ⟨held, hnum, _⟩ := h.sound hh
  obtain ⟨_, hnew⟩ := h.ledger.fresh_id hbound
  have hled := h.ledger.issue hbound c
  rw [← h.count] at hnew hled
  have hg : Grows s.history
      { s.history with issued := ⟨c, s.shared.nextReq⟩ :: s.history.issued } c :=
    ⟨fun _ h => List.mem_cons_of_mem _ h, fun _ h => h, fun _ h => h, fun _ h => h, fun _ h => h,
      fun _ => .inl, fun _ => .inl⟩
  refine ⟨?_, hled, h.wires.congr rfl rfl, h.tables.grows hg rfl (.refl _),
    h.handlers.step h.ledger hg (.refl _) ⟨some s.shared.nextReq, hnum.nextReq _, ?_⟩,
    h.answers hg⟩
  · show s.shared.nextReq + 1 = UInt64.ofNat (s.history.issued.length + 1 + 1)
    rw [h.count, UInt64.ofNat_add (s.history.issued.length + 1) 1]
    rfl
  · intro n hn
    cases hn
    obtain ⟨hunsent, hunreturned⟩ := h.ledger.unused hnew
    exact ⟨⟨List.mem_cons_self .., hunreturned⟩, hunsent⟩

theorem Correlates.call (h : Correlates W s) {reqId : UInt64} {workerId : Bytes} {fwd : Message}
    {k : Message → Interleave.Prog Effect Effect.Res Message}
    (hh : s.handlers c = some (.serving (.perform (.forward reqId workerId fwd) k))) :
    Correlates W ({ s with history := { s.history with
        called := ⟨c, reqId, workerId, fwd⟩ :: s.history.called } }.goto c
      (.calling ⟨reqId, workerId, fwd, k⟩ (.checking s.workers[workerId]?))) := by
  obtain ⟨held, hnum, hheld⟩ := h.sound hh
  obtain ⟨rfl, hk⟩ := hnum.forward
  obtain ⟨hout, hunsent⟩ := hheld reqId rfl
  have hg : Grows s.history
      { s.history with called := ⟨c, reqId, workerId, fwd⟩ :: s.history.called } c :=
    ⟨fun _ h => h, fun _ h => h, fun _ h => h, fun _ h => h, fun _ h => h, fun _ => .inl,
      fun _ => .inl⟩
  refine ⟨h.count, h.ledger.congr rfl rfl rfl rfl rfl, h.wires.congr rfl rfl,
    h.tables.grows hg rfl (.refl _),
    h.handlers.step h.ledger hg (.refl _) ⟨hk, hout, hunsent, fun ref href => ?_⟩,
    h.answers hg⟩
  exact (h.tables.workers workerId ref href).grows hg (.refl _)

theorem Correlates.insert (h : Correlates W s) {call : Call} {slot : ℕ}
    (hh : s.handlers c = some (.calling call (.inserting slot))) :
    Correlates W ({ s with
      pending := s.pending.insert call.reqId s.nextRef
      pends := Function.update s.pends s.nextRef (some {})
      nextRef := s.nextRef + 1
      history := { s.history with
        inserted := ⟨call.reqId, s.nextRef⟩ :: s.history.inserted } }.goto c
      (.calling call (.sending slot s.nextRef))) := by
  obtain ⟨hnum, hout, hunsent, hnames⟩ := h.sound hh
  have hg : Grows s.history
      { s.history with inserted := ⟨call.reqId, s.nextRef⟩ :: s.history.inserted } c :=
    ⟨fun _ h => h, fun _ h => h, fun _ h => h, fun _ h => h, fun _ h => List.mem_cons_of_mem _ h,
      fun _ => .inl, fun _ => .inl⟩
  exact ⟨h.count, h.ledger.insert fun y hy => Nat.ne_of_lt (h.tables.fresh y hy),
    h.wires.congr rfl rfl, h.tables.insert call.reqId,
    h.handlers.step h.ledger hg (.refl _)
      ⟨hnum, hout, hunsent, hnames.grows hg (.refl _), List.mem_cons_self ..⟩,
    h.answers hg⟩

theorem Correlates.sendCommand (h : Correlates W s) {call : Call} {slot pend : ℕ} {sl : WorkerSlot}
    (hh : s.handlers c = some (.calling call (.sending slot pend)))
    (hsl : s.slots slot = some sl) :
    Correlates W ({ s with
      outbound := Function.update s.outbound sl.sock (s.outbound sl.sock ++ [call.command])
      history := { s.history with
        sent := ⟨sl.sock, call.workerId, call.command⟩ :: s.history.sent } }.goto c
      (.calling call (.waiting slot pend))) := by
  obtain ⟨hnum, hout, hunsent, ⟨sl', hsl', hw, htabled⟩, hentry⟩ := h.sound hh
  obtain rfl : sl = sl' := Option.some.inj (hsl.symm.trans hsl')
  have hg : Grows s.history
      { s.history with sent := ⟨sl.sock, call.workerId, call.command⟩ :: s.history.sent } c := by
    refine ⟨fun _ h => h, fun _ h => h, fun _ h => List.mem_cons_of_mem _ h, fun _ h => h,
      fun _ h => h, fun x hx => ?_, fun _ => .inl⟩
    rcases List.mem_cons.mp hx with rfl | hx
    · exact .inr hout.1
    · exact .inl hx
  exact ⟨h.count, h.ledger.send hw hout.1 hunsent, h.wires.send h.ledger hunsent,
    h.tables.grows hg rfl (.refl _),
    h.handlers.step h.ledger hg (.refl _)
      ⟨hnum, hout, ⟨sl.sock, htabled, List.mem_cons_self ..⟩, hentry⟩,
    h.answers hg⟩

theorem answers_of_settles {H : History} (hled : Ledger W H) {call : Called} {d : ℕ}
    {result : Message} (haddr : Addressed H call d) (h : Settles H call.reqId result) :
    CoordinatorError result ∨ ∃ p, Answers H call p ∧ result = p.reply := by
  rcases h with herror | ⟨p, hp, rfl, hid⟩
  · exact .inl herror
  right
  obtain ⟨hcopied, w, hsent⟩ := hled.repliedTo p hp
  -- the command of `p` and that of the call carry the same id, which was sent once
  have hsame := List.inj_on_of_nodup_map hled.sent hsent haddr.2 (hcopied.symm.trans hid)
  obtain ⟨hconn, _, hcmd⟩ := Sent.mk.inj hsame
  exact ⟨p, ⟨hp, hcmd, hconn ▸ haddr⟩, rfl⟩

theorem Correlates.answerCall (h : Correlates W s) {call : Call} {phase : CallPhase}
    {result : Message} (hh : s.handlers c = some (.calling call phase))
    (hanswer : CoordinatorError result ∨
      ∃ p, Answers s.history (call.entry c) p ∧ result = p.reply) :
    Correlates W (s.answerCall c call result) := by
  obtain ⟨hnum, hout, _⟩ := h.sound hh
  have hg : Grows s.history
      { s.history with returned := ⟨call.entry c, result⟩ :: s.history.returned } c := by
    refine ⟨fun _ h => h, fun _ h => h, fun _ h => h, fun _ h => h, fun _ h => h, fun _ => .inl,
      fun r hr => ?_⟩
    rcases List.mem_cons.mp hr with rfl | hr
    · exact .inr hout.1
    · exact .inl hr
  refine ⟨h.count, h.ledger.return (r := ⟨call.entry c, result⟩) hout, h.wires.congr rfl rfl,
    h.tables.grows hg rfl (.refl _),
    h.handlers.step h.ledger hg (.refl _) ⟨none, hnum result, nofun⟩, fun r hr => ?_⟩
  rcases List.mem_cons.mp hr with rfl | hr
  · exact hanswer
  · exact h.answers hg r hr

/-! ### All steps -/

theorem Correlates.move {a : Action} (hm : Move s a s') (hres : s.Resolved)
    (hhonest : Honest W s a) (hbound : s'.history.issued.length < 2 ^ 64) (h : Correlates W s) :
    Correlates W s' := by
  cases hm with
  | accept hnew =>
    refine h.goto ?_
    exact trivial
  | peer hh => exact h.peer hhonest
  | reply hcmd hmsg => exact h.reply hcmd hmsg hhonest
  | hangup hh =>
    refine h.goto ?_
    exact trivial
  | hangupWorker hh =>
    refine h.goto ?_
    exact trivial
  | undecodable hh hin hmsg =>
    refine (h.consume hin).goto ?_
    exact trivial
  | @register c slot frame rest msg id boot hh hin hmsg htype hid hboot =>
    have hw : W c := (h.wires.frames c frame (by simp [hin]) msg hmsg).1 htype
    refine ((h.consume hin).newSlot hres.fresh_slot _).goto ?_
    exact ⟨hw, _, Function.update_self .., rfl⟩
  | registerThrew hh hin =>
    have h' := h.consume hin
    exact ⟨h'.count, h'.ledger, h'.wires, h'.tables, h'.handlers, h'.answered⟩
  | @readReply c slot frame rest msg hh hin hmsg htype hid =>
    have hw : W c := h.sound hh
    have hreply := (h.wires.frames c frame (by simp [hin]) msg hmsg).2 hw
    refine (h.consume hin).goto ?_
    exact ⟨hw, (hreply.resolve_left htype).resolve_left hid⟩
  | readIgnored hh hin hmsg htype hid =>
    have hw := h.sound hh
    refine (h.consume hin).goto ?_
    exact hw
  | readRequest hh hin hmsg htype =>
    refine (h.consume hin).goto ?_
    exact ⟨none, numbered_processControl _, nofun⟩
  | ack hh =>
    have hw := h.sound hh
    refine h.goto ?_
    exact hw
  | answer hh =>
    refine h.goto ?_
    exact trivial
  | answerLost hh =>
    refine h.goto ?_
    exact trivial
  | sendCommand hh hsl => exact h.sendCommand hh hsl
  | sendLost hh =>
    obtain ⟨hnum, hout, _⟩ := h.sound hh
    refine h.goto ?_
    exact ⟨hnum, hout, trivial⟩
  | enterSlot hh => exact h.enterSlot hh
  | enterFabric hh hrec => exact h.enterFabric rfl hh
  | enterThrew hh => exact ⟨h.count, h.ledger, h.wires, h.tables, h.handlers, h.answered⟩
  | find hh hpend =>
    obtain ⟨hw, hreply⟩ := h.sound hh
    refine h.goto ?_
    exact ⟨hw, hreply, h.tables.pending _ _ hpend⟩
  | findNone hh =>
    obtain ⟨hw, _⟩ := h.sound hh
    refine h.goto ?_
    exact hw
  | settle hh =>
    obtain ⟨hw, hreply, hentry⟩ := h.sound hh
    refine (h.settle hreply hentry).goto ?_
    exact hw
  | @locked c sec k hh =>
    obtain ⟨held, hnum, hheld⟩ := h.sound hh
    refine (h.shared (sec.run_nextReq s.shared)).goto ?_
    exact ⟨held, hnum.locked _, hheld⟩
  | nextReq hh => exact h.nextReq hbound hh
  | shutdown hh =>
    obtain ⟨held, hnum, hheld⟩ := h.sound hh
    have hnext : Shared.nextReq { s.shared with shutdown := true } = s.shared.nextReq := rfl
    refine (h.shared hnext).goto ?_
    exact ⟨held, hnum.shutdown, hheld⟩
  | call hh => exact h.call hh
  | checkFailed hh => exact h.answerCall hh (.inl (.inl rfl))
  | check hh hsl hconn =>
    obtain ⟨hnum, hout, hunsent, hnames⟩ := h.sound hh
    refine h.goto ?_
    exact ⟨hnum, hout, hunsent, hnames _ rfl⟩
  | insert hh => exact h.insert hh
  | unsend hh => exact (h.erasePending _).answerCall hh (.inl (.inr (.inl rfl)))
  | wake hh hpd hdone =>
    obtain ⟨hnum, hout, haddr, hentry⟩ := h.sound hh
    refine h.goto ?_
    exact ⟨hnum, hout, haddr, (h.tables.pends _ hentry _ hpd).2 hdone⟩
  | erase hh =>
    obtain ⟨_, _, ⟨d, haddr⟩, hresult⟩ := h.sound hh
    exact (h.erasePending _).answerCall hh (answers_of_settles h.ledger haddr hresult)
  | close hh =>
    refine (h.disconnect _).goto ?_
    exact trivial
  | sweep hh =>
    refine (h.abortAll _).goto ?_
    exact trivial
  | @down c slot sl hh hsl =>
    have hnext : Shared.nextReq { s.shared with fabric := s.shared.fabric.onWorkerDown sl.id } =
      s.shared.nextReq := rfl
    refine (h.shared hnext).goto ?_
    exact trivial

end Steps

/-! ## Correlation -/

/-- Calls return errors of the coordinator or the reply to exactly their command. No two of them
return the same reply, and no two commands or replies are the same. -/
structure Correlated (H : History) : Prop where
  answered : ∀ r ∈ H.returned,
    CoordinatorError r.result ∨ ∃ p, Answers H r.call p ∧ r.result = p.reply
  once : H.returned.Pairwise fun r r' => ∀ p, Answers H r.call p → ¬ Answers H r'.call p
  commands : H.sent.Pairwise fun x y => x.cmd ≠ y.cmd
  replies : H.replied.Pairwise fun p q => p.cmd ≠ q.cmd ∧ p.reply ≠ q.reply

theorem Correlates.correlated {W : ℕ → Prop} {s : Server} (h : Correlates W s) :
    Correlated s.history := by
  refine ⟨h.answered, ?_, ?_, ?_⟩
  · refine (List.pairwise_map.mp h.ledger.returned).imp fun hne p hp hp' => hne ?_
    exact congrArg Message.reqId (hp.2.1.symm.trans hp'.2.1)
  · exact (List.pairwise_map.mp h.ledger.sent).imp fun hne heq => hne (congrArg Message.reqId heq)
  · refine (List.pairwise_map.mp h.ledger.replied).imp_of_mem fun {p q} hp hq hne => ?_
    refine ⟨fun heq => hne (congrArg Message.reqId heq), fun heq => hne ?_⟩
    rw [← (h.ledger.repliedTo p hp).1, ← (h.ledger.repliedTo q hq).1, heq]

theorem Initial.correlates {s : Server} (h : Initial s) (W : ℕ → Prop) : Correlates W s := by
  obtain ⟨limits, rng, rfl⟩ := h
  refine ⟨rfl, Ledger.empty W, ⟨nofun, fun _ => List.nodup_nil, nofun⟩, ⟨?_, ?_, nofun, nofun⟩,
    nofun, nofun⟩
  · intro text ref href
    rw [Std.ExtTreeMap.getElem?_empty] at href
    cases href
  · intro n pend hn
    rw [Std.ExtTreeMap.getElem?_empty] at hn
    cases hn

/-- Honest workers keep the ledger as long as ids are not used up. -/
theorem correlates_of_honest {W : ℕ → Prop} {s₀ : Server} {path : List (Action × Server)}
    (h₀ : Initial s₀) (h : Run.Each Step s₀ path)
    (hhonest : Run.Each (fun s a _ => Honest W s a) s₀ path)
    (hissued : ∀ x ∈ path, x.2.history.issued.length < 2 ^ 64) :
    ∀ x ∈ path, Correlates W x.2 := by
  have hbound : Run.Each (fun _ _ s => s.history.issued.length < 2 ^ 64) s₀ path :=
    Run.each_target.mpr hissued
  exact h.always_of (I := Resolved) (P := Correlates W) (fun hs hres => hres.move (act_move hs))
    (fun hs hres hP hC => hP.move (act_move hs) hres hC.1 hC.2) (hhonest.and hbound)
    h₀.resolved (h₀.correlates W)

/-- Whatever the handlers, workers and clients do, every call that returns does so with an error of
the coordinator or the reply to exactly its command, and no reply is returned by two calls. -/
theorem reply_correlation {W : ℕ → Prop} {s₀ : Server} {path : List (Action × Server)}
    (h₀ : Initial s₀) (h : Run.Each Step s₀ path)
    (hhonest : Run.Each (fun s a _ => Honest W s a) s₀ path)
    (hissued : ∀ x ∈ path, x.2.history.issued.length < 2 ^ 64) :
    ∀ x ∈ path, Correlated x.2.history :=
  fun x hx => (correlates_of_honest h₀ h hhonest hissued x hx).correlated

/-! ### A request that is answered -/

def sampleReply : Message := { type := .wkDeactivateAck, reqId := 1, ok := true }

/-- The worker answers a deactivation, and the call returns the answer. -/
def answered : List Action :=
  joins 0 workerRegistration ++ asks 1 deactivateRequest ++ forwards 1 ++
    [.reply 0 0 (encodeMessage sampleReply), .read 0, .advance 0, .advance 0, .advance 1,
      .advance 1]

theorem reply_correlation_sample :
    ∃ s, Run.Steps Step start answered s ∧ Correlated s.history ∧
      s.history.returned.map (·.result) = [sampleReply] := by
  obtain ⟨s, hs, hreturned⟩ :
      ∃ s : Server, Run.tryExec act answered start = some s ∧
        s.history.returned.map (·.result) = [sampleReply] :=
    Run.exists_tryExec (by decide +kernel)
  have hrun := Run.Steps.of_tryExec hs
  obtain ⟨path, hpath, hlabels, hlast⟩ := hrun.exists_path
  obtain ⟨a, hmem⟩ := hlast (by simp [answered])
  have hall : Run.allSteps act (fun s a t => decide (Honest (fun c => c = 0) s a) &&
      decide (t.history.issued.length < 2 ^ 64)) (path.map Prod.fst) start = true := by
    rw [hlabels]
    decide +kernel
  have hsteps := Run.Each.of_allSteps hpath hall
  have hhonest : Run.Each (fun s a _ => Honest (fun c => c = 0) s a) start path :=
    hsteps.imp fun s a t h => of_decide_eq_true (Bool.and_eq_true_iff.mp h).1
  have hbound : Run.Each (fun _ _ s => s.history.issued.length < 2 ^ 64) start path :=
    hsteps.imp fun s a t h => of_decide_eq_true (Bool.and_eq_true_iff.mp h).2
  exact ⟨s, hrun, reply_correlation start_initial hpath hhonest (Run.each_target.mp hbound) (a, s)
    hmem, hreturned⟩

end Server

end Coordinator

end AdapterFabric
