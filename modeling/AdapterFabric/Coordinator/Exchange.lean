import AdapterFabric.Coordinator.Deployment
import AdapterFabric.Coordinator.Loading
import AdapterFabric.Coordinator.Registration

/-!
# AdapterFabric.Coordinator.Exchange

What the coordinator and the processes of its workers exchange.

* `Sound.orderly_move`: a worker handles the commands sent to it in their order, each once.
* `Move.refines`: every step of a deployment is one of the coordinator with honest workers, or none;
  what a worker replies is the reply to the first command that it had not read.
-/

namespace AdapterFabric

namespace Coordinator

namespace Deployment

/-! ## Commands in order -/

/-- The commands sent over `c`, in order. -/
def sentOver (H : History) (c : ℕ) : List Message :=
  ((H.sent.filter (·.conn = c)).map (·.cmd)).reverse

/-- The commands that the worker at the other end of `c` has handled, in order. -/
def handledBy (d : Deployment) (c : ℕ) : List Message :=
  ((d.handled.filter (·.conn = c)).map (·.cmd)).reverse

/-- A process that has handled commands since it started. -/
def replay (opts : WorkerOptions) (cmds : List Message) : WorkerService :=
  cmds.foldl (fun w cmd => (w.handleCommand cmd).1) (.ofOptions opts)

/-- What a step of the coordinator sends over `c`. -/
def sends (x : Option (ℕ × Delivery)) (c : ℕ) : List Delivery :=
  match x with
  | none => []
  | some (c', x) => if c' = c then [x] else []

theorem deliver_apply (x : Option (ℕ × Delivery)) (downstream : ℕ → List Delivery) (c : ℕ) :
    deliver x downstream c = downstream c ++ sends x c := by
  cases x with
  | none => simp [deliver, sends]
  | some x =>
    by_cases hc : x.1 = c
    · simp [deliver, sends, ← hc]
    · simp [deliver, sends, hc, Function.update_of_ne (Ne.symm hc)]

@[simp] theorem commands_nil : commands [] = [] := rfl

@[simp] theorem commands_ack (epoch : UInt64) (xs : List Delivery) :
    commands (.ack epoch :: xs) = commands xs := rfl

@[simp] theorem commands_command (cmd : Message) (xs : List Delivery) :
    commands (.command cmd :: xs) = cmd :: commands xs := rfl

@[simp] theorem commands_append (xs ys : List Delivery) :
    commands (xs ++ ys) = commands xs ++ commands ys := List.filterMap_append

theorem sentOver_cons (x : Sent) (H : History) (c : ℕ) :
    sentOver { H with sent := x :: H.sent } c =
      sentOver H c ++ if x.conn = c then [x.cmd] else [] := by
  by_cases hc : x.conn = c
  · simp [sentOver, hc]
  · simp [sentOver, hc]

/-- The commands that a step sends are appended to what was sent, and to what waits. -/
theorem sends_move {s s' : Server} {a : Coordinator.Action} (hm : Server.Move s a s')
    (hreply : ∀ c i frame, a ≠ .reply c i frame) (c : ℕ) :
    sentOver s'.history c = sentOver s.history c ++ commands (sends (delivery s a) c) ∧
      s'.outbound c = s.outbound c ++ commands (sends (delivery s a) c) := by
  have hnothing (h : commands (sends (delivery s a) c) = [])
      (hsent : s'.history.sent = s.history.sent) (hout : s'.outbound = s.outbound) :
      sentOver s'.history c = sentOver s.history c ++ commands (sends (delivery s a) c) ∧
        s'.outbound c = s.outbound c ++ commands (sends (delivery s a) c) := by
    simp [h, sentOver, hsent, hout]
  cases hm with
  | reply hcmd hmsg => exact absurd rfl (hreply _ _ _)
  | @ack c' slot delivered hh =>
    refine hnothing ?_ rfl rfl
    cases delivered with
    | false => rfl
    | true =>
      simp only [delivery, hh, sends]
      split <;> rfl
  | answer hh =>
    refine hnothing ?_ rfl rfl
    simp only [delivery, hh]
    rfl
  | @sendCommand c' call slot pend sl hh hsl =>
    simp only [delivery, hh, hsl, Option.map_some, sends]
    refine ⟨(sentOver_cons _ _ c).trans ?_, ?_⟩
    · split <;> rfl
    · show Function.update s.outbound sl.sock (s.outbound sl.sock ++ [call.command]) c = _
      by_cases hc : sl.sock = c
      · subst hc
        simp
      · simp [hc, Function.update_of_ne (Ne.symm hc)]
  | _ => exact hnothing rfl rfl rfl

/-- What was sent over `c` is what its worker has handled and what waits, and the coordinator waits
for the answers to what waits. -/
structure Waits (d : Deployment) (c : ℕ) : Prop where
  sent : sentOver d.server.history c = d.handledBy c ++ commands (d.downstream c)
  open_ : commands (d.downstream c) <:+ d.server.outbound c

/-- A worker that runs has handled a part of what was sent to it, in order, and is what that made of
it. -/
def Orderly (d : Deployment) (c : ℕ) : Option Process → Prop
  | none => d.Waits c ∧ d.handledBy c = []
  | some (.connected w) => d.Waits c ∧ d.handledBy c = [] ∧ w = .ofOptions w.opts
  | some (.registering w) => d.Waits c ∧ d.handledBy c = [] ∧ w = .ofOptions w.opts
  | some (.running w) => d.Waits c ∧ w = replay w.opts (d.handledBy c)
  | some .exited => d.handledBy c <+: sentOver d.server.history c

section Orderly

variable {d d' : Deployment} {c : ℕ}

theorem Orderly.prefix_ {p : Option Process} (h : d.Orderly c p) :
    d.handledBy c <+: sentOver d.server.history c := by
  have hwaits (hw : d.Waits c) : d.handledBy c <+: sentOver d.server.history c :=
    ⟨_, hw.sent.symm⟩
  match p, h with
  | none, h => exact hwaits h.1
  | some (.connected _), h => exact hwaits h.1
  | some (.registering _), h => exact hwaits h.1
  | some (.running _), h => exact hwaits h.1
  | some .exited, h => exact h

theorem Orderly.grow {p : Option Process} {more : List Message} (h : d.Orderly c p)
    (hhandled : d'.handled = d.handled)
    (hdown : commands (d'.downstream c) = commands (d.downstream c) ++ more)
    (hsent : sentOver d'.server.history c = sentOver d.server.history c ++ more)
    (hout : d'.server.outbound c = d.server.outbound c ++ more) : d'.Orderly c p := by
  have hby : d'.handledBy c = d.handledBy c := by rw [handledBy, hhandled, handledBy]
  have hwaits (hw : d.Waits c) : d'.Waits c := by
    obtain ⟨lost, hlost⟩ := hw.open_
    refine ⟨?_, ⟨lost, ?_⟩⟩
    · rw [hsent, hby, hdown, hw.sent, List.append_assoc]
    · rw [hdown, hout, ← hlost, List.append_assoc]
  match p, h with
  | none, h => exact ⟨hwaits h.1, hby.trans h.2⟩
  | some (.connected _), h => exact ⟨hwaits h.1, hby.trans h.2.1, h.2.2⟩
  | some (.registering _), h => exact ⟨hwaits h.1, hby.trans h.2.1, h.2.2⟩
  | some (.running _), h => exact ⟨hwaits h.1, hby.symm ▸ h.2⟩
  | some .exited, h =>
    obtain ⟨rest, hrest⟩ := h
    exact ⟨rest ++ more, by rw [hby, hsent, ← hrest, List.append_assoc]⟩

theorem Orderly.same {p : Option Process} (h : d.Orderly c p)
    (hby : d'.handledBy c = d.handledBy c) (hdown : d'.downstream c = d.downstream c)
    (hsent : d'.server.history.sent = d.server.history.sent)
    (hout : d'.server.outbound c = d.server.outbound c) : d'.Orderly c p := by
  have hover : sentOver d'.server.history c = sentOver d.server.history c := by
    rw [sentOver, hsent, sentOver]
  have hwaits (hw : d.Waits c) : d'.Waits c := by
    refine ⟨?_, ?_⟩
    · rw [hover, hby, hdown, hw.sent]
    · rw [hdown, hout]
      exact hw.open_
  match p, h with
  | none, h => exact ⟨hwaits h.1, hby.trans h.2⟩
  | some (.connected _), h => exact ⟨hwaits h.1, hby.trans h.2.1, h.2.2⟩
  | some (.registering _), h => exact ⟨hwaits h.1, hby.trans h.2.1, h.2.2⟩
  | some (.running _), h => exact ⟨hwaits h.1, hby.symm ▸ h.2⟩
  | some .exited, h =>
    obtain ⟨rest, hrest⟩ := h
    exact ⟨rest, by rw [hby, hover, hrest]⟩

end Orderly

end Deployment

/-! ## Registrations that the coordinator accepts -/

/-- A frame that is no registration, or one that can be accepted. -/
def Fine (frame : Bytes) : Prop :=
  ∀ msg, decodeMessage frame = .ok msg → msg.type = .wkRegister → Identified msg

def Handler.Upright : Handler → Prop
  | inserting msg _ => Identified msg
  | registering msg _ => Identified msg
  | _ => True

namespace Server

variable {s s' : Server}

/-- No exception has left a thread, and none will for what has arrived. -/
structure Upright (s : Server) : Prop where
  alive : s.terminated = false
  frames : ∀ c, ∀ frame ∈ s.inbound c, Fine frame
  handlers : ∀ c h, s.handlers c = some h → h.Upright

theorem Upright.parses (h : s.Upright) (a : Action) : Parses s a := by
  constructor
  · rintro c msg rfl htakes
    cases htakes with
    | @read c slot frame rest msg hh hin hmsg htype =>
      exact (h.frames c frame (by simp [hin]) msg hmsg htype).toLegible
  · rintro c msg slot rfl hh
    exact (h.handlers c _ hh : Identified msg).node

theorem Upright.parsed (h : s.Upright) : ∀ c hd, s.handlers c = some hd → hd.Parsed := by
  intro c hd hh
  have hup := h.handlers c hd hh
  cases hd with
  | inserting msg slot => exact hup.toLegible
  | registering msg slot => exact hup
  | _ => trivial

/-- Frames that arrive are fine. -/
def Brings (a : Action) : Prop :=
  match a with
  | .peer _ frame => Fine frame
  | .reply _ _ frame => Fine frame
  | _ => True

theorem Upright.move {a : Action} (hs : s.Step a s') (hbrings : Brings a) (h : s.Upright) :
    s'.Upright := by
  have halive := alive_of_parses hs h.alive h.parsed (h.parses a)
  have hgoto {c : ℕ} {hd : Handler} (hnew : hd.Upright) :
      ∀ d hd', Function.update s.handlers c (some hd) d = some hd' → hd'.Upright := by
    intro d hd' hh
    rcases Table.of_update hh with ⟨-, rfl⟩ | ⟨-, hh⟩
    · exact hnew
    · exact h.handlers d hd' hh
  have hconsume {c : ℕ} {frame : Bytes} {rest : List Bytes} (hin : s.inbound c = frame :: rest) :
      ∀ d, ∀ f ∈ Function.update s.inbound c rest d, Fine f := by
    intro d f hf
    by_cases hd : d = c
    · subst hd
      rw [Function.update_self] at hf
      exact h.frames d f (by simp [hin, hf])
    · rw [Function.update_of_ne hd] at hf
      exact h.frames d f hf
  have harrive {c : ℕ} {frame : Bytes} (hframe : Fine frame) :
      ∀ d, ∀ f ∈ Function.update s.inbound c (s.inbound c ++ [frame]) d, Fine f := by
    intro d f hf
    by_cases hd : d = c
    · subst hd
      rw [Function.update_self] at hf
      rcases List.mem_append.mp hf with hf | hf
      · exact h.frames d f hf
      · obtain rfl := List.mem_singleton.mp hf
        exact hframe
    · rw [Function.update_of_ne hd] at hf
      exact h.frames d f hf
  cases act_move hs with
  | peer hh => exact ⟨halive, harrive hbrings, h.handlers⟩
  | reply hcmd hmsg => exact ⟨halive, harrive hbrings, h.handlers⟩
  | registerThrew hh hin => cases halive
  | enterThrew hh => cases halive
  | @register c slot frame rest msg id boot hh hin hmsg htype hid hboot =>
    refine ⟨halive, hconsume hin, hgoto ?_⟩
    exact h.frames c frame (by simp [hin]) msg hmsg htype
  | undecodable hh hin hmsg => exact ⟨halive, hconsume hin, hgoto trivial⟩
  | readReply hh hin hmsg htype hid => exact ⟨halive, hconsume hin, hgoto trivial⟩
  | readIgnored hh hin hmsg htype hid => exact ⟨halive, hconsume hin, hgoto trivial⟩
  | readRequest hh hin hmsg htype => exact ⟨halive, hconsume hin, hgoto trivial⟩
  | @enterSlot c msg slot hh =>
    have hid : Identified msg := h.handlers c _ hh
    exact ⟨halive, h.frames, hgoto (c := c) (show (Handler.registering msg slot).Upright from hid)⟩
  | _ => exact ⟨halive, h.frames, hgoto trivial⟩

theorem Initial.upright (h : Initial s) : s.Upright := by
  obtain ⟨limits, rng, rfl⟩ := h
  exact ⟨rfl, nofun, nofun⟩

theorem Move.accepted {a : Action} (hm : Move s a s') {c : ℕ} (hc : s.handlers c ≠ none) :
    s'.handlers c ≠ none := by
  by_cases hconn : c = a.conn
  · subst hconn
    cases hm with
    | peer hh => exact hc
    | reply hcmd hmsg => exact hc
    | registerThrew hh hin => exact hc
    | enterThrew hh => exact hc
    | _ =>
      intro hnone
      cases (goto_self ..).symm.trans hnone
  · rwa [hm.handlers hconn]

end Server

namespace Deployment

/-! ## Every step is one of the coordinator, or none -/

/-- What holds of every deployment that runs. -/
structure Sound (d : Deployment) : Prop where
  accepted : ∀ c, d.processes c ≠ none → d.server.handlers c ≠ none
  orderly : ∀ c, d.Orderly c (d.processes c)
  upright : d.server.Upright
  loads : d.server.Loads fun _ => True

variable {d d' : Deployment} {a : Action}

theorem identified_registration (w : WorkerService) : Identified w.registration := by
  refine ⟨⟨⟨w.opts.id, mustParse_str _⟩, ⟨w.boot, mustParse_str _⟩⟩, w.opts.node, ?_⟩
  have hne : w.opts.node.str ≠ [] := by
    intro hnil
    have hlen := length_of_mustParse (mustParse_str w.opts.node)
    rw [hnil] at hlen
    cases hlen
  unfold parseNode
  rw [if_neg (by simpa [WorkerService.registration] using hne)]
  exact mustParse_str w.opts.node

/-- Replies are short, and no registrations. -/
theorem handleCommand_short {w : WorkerService} {msg m : Message}
    (h : (w.handleCommand msg).2 = some m) : m.Sized ∧ m.type ≠ .wkRegister := by
  have hreply {type : MsgType} {bytes : UInt64} {note : Bytes} (hnote : note.length < 2 ^ 32)
      (htype : type ≠ .wkRegister) :
      (WorkerService.reply msg type true bytes note).Sized ∧
        (WorkerService.reply msg type true bytes note).type ≠ .wkRegister := by
    have hempty : 0 < 2 ^ 32 := Nat.two_pow_pos 32
    exact ⟨⟨hnote, hempty, hempty, hempty, hempty⟩, htype⟩
  unfold WorkerService.handleCommand at h
  split_ifs at h <;> cases h <;> exact hreply (by decide) (by decide)

/-- A worker answers commands, not acknowledgements. -/
theorem command_of_reply {w : WorkerService} {x : Delivery} {m : Message}
    (h : (w.handleCommand x.message).2 = some m) : ∃ cmd, x = .command cmd := by
  cases x with
  | ack epoch => cases h
  | command cmd => exact ⟨cmd, rfl⟩

/-- What a worker replies is the reply to the first command that it had not read. -/
theorem reply_step {c : ℕ} {w : WorkerService} {cmd m : Message} {rest : List Delivery}
    (halive : d.server.terminated = false) (hx : d.downstream c = .command cmd :: rest)
    (hopen : commands (d.downstream c) <:+ d.server.outbound c)
    (hm : (w.handleCommand cmd).2 = some m) :
    ∃ i, (d.server.outbound c)[i]? = some cmd ∧
      Server.Step d.server (.reply c i (encodeMessage m)) (d.reply c cmd m) := by
  obtain ⟨lost, hlost⟩ := hopen
  rw [hx, commands_command] at hlost
  have hi : (d.server.outbound c).length - (commands (d.downstream c)).length = lost.length := by
    rw [← hlost, hx, commands_command, List.length_append]
    omega
  have hcmd : (d.server.outbound c)[lost.length]? = some cmd := by simp [← hlost]
  refine ⟨lost.length, hcmd, ?_⟩
  unfold Server.Step Server.act
  rw [if_neg (by simp [halive])]
  simp only [hcmd, decodeMessage_encodeMessage (handleCommand_short hm).1]
  simp only [reply, hi]

/-- The connections `W` are those of workers, and the others those of clients. -/
structure Roles (W : ℕ → Prop) (d : Deployment) : Prop where
  workers : ∀ c, d.processes c ≠ none → W c
  clients : ∀ c, d.server.handlers c ≠ none → d.processes c = none → ¬ W c

theorem permits_peer {c : ℕ} {frame : Bytes} (h : d.permits (.peer c frame) = true) :
    d.processes c = none ∧
      ∀ msg, decodeMessage frame = .ok msg → msg.type ≠ .wkRegister := by
  simp only [permits, Bool.and_eq_true, Option.isNone_iff_eq_none] at h
  refine ⟨h.1, fun msg hmsg => ?_⟩
  have htype := h.2
  rw [hmsg] at htype
  exact of_decide_eq_true htype

/-- Every step of a deployment is one of the coordinator with honest workers, or none. -/
theorem Move.refines (hm : Move d a d') (h : d.Sound) :
    d'.server = d.server ∨ ∃ b, Server.Step d.server b d'.server ∧ Server.Brings b ∧
      ∀ W, Roles W d → Server.Honest W d.server b := by
  cases hm with
  | @coordinator a server hpermits hstep =>
    refine .inr ⟨a, hstep, ?_⟩
    cases a with
    | peer c frame =>
      obtain ⟨hnone, htype⟩ := permits_peer hpermits
      refine ⟨fun msg hmsg hreg => absurd hreg (htype msg hmsg), fun W hW msg hmsg => ?_⟩
      have hhandler : d.server.handlers c ≠ none := by
        cases Server.act_move hstep with
        | peer hh => simp [hh]
      exact ⟨fun hreg => absurd hreg (htype msg hmsg),
        fun hw => absurd hw (hW.clients c hhandler hnone)⟩
    | reply c i frame => cases hpermits
    | _ => exact ⟨trivial, fun _ _ => trivial⟩
  | launch hstep => exact .inr ⟨_, hstep, trivial, fun _ _ => trivial⟩
  | registerLost hp => exact .inl rfl
  | registerLong hp => exact .inl rfl
  | @register c w server hp hsize hstep =>
    have hdecode := decodeMessage_of_receivable hsize
    refine .inr ⟨_, hstep, fun msg hmsg _ => ?_, fun W hW msg hmsg => ?_⟩
    · obtain rfl := Except.ok.inj (hdecode.symm.trans hmsg)
      exact identified_registration w
    · obtain rfl := Except.ok.inj (hdecode.symm.trans hmsg)
      exact ⟨fun _ => hW.workers c (by simp [hp]), fun _ => .inl rfl⟩
  | acked hp hx hok => exact .inl rfl
  | gaveUp hp hx => exact .inl rfl
  | @handle c w x rest delivered hp hx =>
    have hserver : ((d.handle c w x x.message delivered).taken c rest).server =
        if delivered then ((w.handleCommand x.message).2.map (d.reply c x.message)).getD d.server
        else d.server := rfl
    rw [hserver]
    cases delivered with
    | false => exact .inl rfl
    | true =>
      cases hout : (w.handleCommand x.message).2 with
      | none => exact .inl rfl
      | some m =>
        obtain ⟨cmd, rfl⟩ := command_of_reply hout
        have horderly := h.orderly c
        rw [hp] at horderly
        obtain ⟨i, hcmd, hstep⟩ := reply_step h.upright.alive hx horderly.1.open_ hout
        refine .inr ⟨_, hstep, fun msg hmsg htype => ?_, fun W _ cmd' msg hcmd' hmsg => ?_⟩
        · rw [decodeMessage_encodeMessage (handleCommand_short hout).1] at hmsg
          cases hmsg
          exact absurd htype (handleCommand_short hout).2
        · rw [decodeMessage_encodeMessage (handleCommand_short hout).1] at hmsg
          cases hmsg
          obtain rfl := Option.some.inj (hcmd.symm.trans hcmd')
          exact (WorkerService.handleCommand_reply hout).1
  | exit hp => exact .inl rfl

/-! ## Every step keeps the commands in order -/

/-- One process goes on, and the others keep what they have. -/
theorem orderly_of_others {c : ℕ} {p : Process}
    (hprocesses : d'.processes = Function.update d.processes c (some p))
    (hothers : ∀ c', c' ≠ c → d'.Orderly c' (d.processes c')) (hself : d'.Orderly c (some p)) :
    ∀ c', d'.Orderly c' (d'.processes c') := by
  intro c'
  rw [hprocesses]
  by_cases hc : c' = c
  · subst hc
    rwa [Function.update_self]
  · rw [Function.update_of_ne hc]
    exact hothers c' hc

theorem handleCommand_opts (w : WorkerService) (msg : Message) :
    (w.handleCommand msg).1.opts = w.opts := by
  unfold WorkerService.handleCommand
  split_ifs <;> rfl

theorem replay_append (opts : WorkerOptions) (cmds : List Message) (cmd : Message) :
    replay opts (cmds ++ [cmd]) = ((replay opts cmds).handleCommand cmd).1 := by
  simp [replay]

theorem commands_cons (x : Delivery) (xs : List Delivery) :
    commands (x :: xs) = x.command?.toList ++ commands xs := by
  cases x <;> simp [Delivery.command?]

/-- A worker that handles one more command is what it would have been from the start. -/
theorem replay_handle {w : WorkerService} {cmds : List Message} (x : Delivery)
    (h : w = replay w.opts cmds) :
    (w.handleCommand x.message).1 =
      replay (w.handleCommand x.message).1.opts (cmds ++ x.command?.toList) := by
  rw [handleCommand_opts]
  cases x with
  | ack epoch =>
    show w = replay w.opts (cmds ++ [])
    rwa [List.append_nil]
  | command cmd =>
    show _ = replay w.opts (cmds ++ [cmd])
    rw [replay_append, ← h]
    rfl

theorem handledBy_handle (d : Deployment) (c c' : ℕ) (w : WorkerService) (x : Delivery)
    (delivered : Bool) : (d.handle c w x x.message delivered).handledBy c' =
      d.handledBy c' ++ if c = c' then x.command?.toList else [] := by
  cases x with
  | ack epoch => simp [handle, handledBy, goto, Delivery.command?]
  | command cmd =>
    by_cases hc : c = c'
    · simp [handle, handledBy, goto, Delivery.command?, hc]
    · simp [handle, handledBy, goto, Delivery.command?, hc]

theorem server_handle (d : Deployment) (c : ℕ) (w : WorkerService) (x : Delivery)
    (delivered : Bool) : (d.handle c w x x.message delivered).server = d.server ∨
      ∃ cmd m, x = .command cmd ∧
        (d.handle c w x x.message delivered).server = d.reply c cmd m := by
  have hserver : (d.handle c w x x.message delivered).server =
      if delivered then ((w.handleCommand x.message).2.map (d.reply c x.message)).getD d.server
      else d.server := rfl
  rw [hserver]
  cases delivered with
  | false => exact .inl rfl
  | true =>
    cases hout : (w.handleCommand x.message).2 with
    | none => exact .inl rfl
    | some m =>
      obtain ⟨cmd, rfl⟩ := command_of_reply hout
      exact .inr ⟨cmd, m, rfl, rfl⟩

theorem open_reply {c : ℕ} {cmd m : Message} {rest : List Delivery}
    (hx : d.downstream c = .command cmd :: rest)
    (hopen : commands (d.downstream c) <:+ d.server.outbound c) :
    commands rest <:+ (d.reply c cmd m).outbound c := by
  obtain ⟨lost, hlost⟩ := hopen
  have hlen : (d.server.outbound c).length - (commands (d.downstream c)).length = lost.length := by
    rw [← hlost, List.length_append]
    omega
  have hout : (d.reply c cmd m).outbound c = (d.server.outbound c).eraseIdx lost.length := by
    simp [reply, hlen]
  rw [hout, ← hlost, hx, commands_command, List.eraseIdx_append_of_length_le (by omega)]
  exact ⟨lost, by simp⟩

theorem orderly_handle {c : ℕ} {w : WorkerService} {x : Delivery} {rest : List Delivery}
    (delivered : Bool) (hx : d.downstream c = x :: rest) (h : d.Orderly c (some (.running w))) :
    let d' := (d.handle c w x x.message delivered).taken c rest
    d'.Waits c ∧ (w.handleCommand x.message).1 =
      replay (w.handleCommand x.message).1.opts (d'.handledBy c) := by
  intro d'
  obtain ⟨hwaits, hreplay⟩ := h
  have hby : d'.handledBy c = d.handledBy c ++ x.command?.toList := by
    show (d.handle c w x x.message delivered).handledBy c = _
    rw [handledBy_handle, if_pos rfl]
  have hdown : d'.downstream c = rest := Function.update_self ..
  have hopen : commands rest <:+ d.server.outbound c := by
    refine List.IsSuffix.trans ?_ hwaits.open_
    rw [hx, commands_cons]
    exact List.suffix_append _ _
  refine ⟨⟨?_, ?_⟩, ?_⟩
  · have hsent : sentOver d'.server.history c = sentOver d.server.history c := by
      show sentOver (d.handle c w x x.message delivered).server.history c = _
      rcases server_handle d c w x delivered with he | ⟨cmd, m, rfl, he⟩
      · rw [he]
      · rw [he]
        rfl
    rw [hsent, hwaits.sent, hby, hdown, hx, commands_cons, List.append_assoc]
  · rw [hdown]
    show commands rest <:+ (d.handle c w x x.message delivered).server.outbound c
    rcases server_handle d c w x delivered with he | ⟨cmd, m, rfl, he⟩
    · rwa [he]
    · rw [he]
      exact open_reply hx hwaits.open_
  · rw [hby]
    exact replay_handle x hreplay

theorem mem_sentOver {H : History} {c : ℕ} {cmd : Message} (h : cmd ∈ sentOver H c) :
    ∃ x ∈ H.sent, x.conn = c ∧ x.cmd = cmd := by
  simpa [sentOver, and_assoc] using h

theorem Sound.waiting (hd : d.Sound) {c : ℕ} {cmd : Message} (hwaits : d.Waits c)
    (h : cmd ∈ commands (d.downstream c)) : IsCommand cmd := by
  have hsent : cmd ∈ sentOver d.server.history c := by
    rw [hwaits.sent]
    exact List.mem_append_right _ h
  obtain ⟨x, hx, -, rfl⟩ := mem_sentOver hsent
  exact (hd.loads.sent x hx).toIsCommand

/-- No command is taken for an acknowledgement. -/
theorem Sound.ack_of_ok (hd : d.Sound) {c : ℕ} {x : Delivery} {rest : List Delivery}
    (hwaits : d.Waits c) (hx : d.downstream c = x :: rest) (hok : x.message.ok = true) :
    ∃ epoch, x = .ack epoch := by
  cases x with
  | ack epoch => exact ⟨epoch, rfl⟩
  | command cmd =>
    have hcmd : IsCommand cmd := hd.waiting hwaits (by simp [hx])
    cases hcmd.ok.symm.trans hok

theorem Sound.orderly_move (hm : Move d a d') (hd : d.Sound) :
    ∀ c, d'.Orderly c (d'.processes c) := by
  have h := hd.orderly
  cases hm with
  | @coordinator a server hpermits hstep =>
    intro c
    have hreply : ∀ c i frame, a ≠ .reply c i frame := by
      rintro c i frame rfl
      cases hpermits
    obtain ⟨hsent, hout⟩ := sends_move (Server.act_move hstep) hreply c
    refine (h c).grow rfl ?_ hsent hout
    show commands (deliver (delivery d.server a) d.downstream c) = _
    rw [deliver_apply, commands_append]
  | @launch c opts server hstep =>
    cases Server.act_move hstep with
    | accept hnew =>
      have hnone : d.processes c = none := not_not.mp fun hsome => hd.accepted c hsome hnew
      have hself := h c
      rw [hnone] at hself
      have hsame (c' : ℕ) (p : Option Process) (hp : d.Orderly c' p) :
          ({ d with server := d.server.goto c (.reading none) }.goto c
            (.connected (.ofOptions opts))).Orderly c' p := hp.same rfl rfl rfl rfl
      obtain ⟨hwaits, hby⟩ := hsame c none hself
      exact orderly_of_others rfl (fun c' _ => hsame c' _ (h c')) ⟨hwaits, hby, rfl⟩
  | @registerLost c w hp =>
    have hself := (h c).prefix_
    exact orderly_of_others rfl (fun c' _ => (h c').same rfl rfl rfl rfl) hself
  | @registerLong c w hp =>
    have hself := h c
    rw [hp] at hself
    obtain ⟨hwaits, hby, hw⟩ := hself
    exact orderly_of_others rfl (fun c' _ => (h c').same rfl rfl rfl rfl)
      ⟨⟨hwaits.sent, hwaits.open_⟩, hby, hw⟩
  | @register c w server hp hsize hstep =>
    cases Server.act_move hstep with
    | peer hh =>
      have hself := h c
      rw [hp] at hself
      obtain ⟨hwaits, hby, hw⟩ := hself
      exact orderly_of_others rfl (fun c' _ => (h c').same rfl rfl rfl rfl)
        ⟨⟨hwaits.sent, hwaits.open_⟩, hby, hw⟩
  | @acked c w x rest delivered hp hx hok =>
    have hself := h c
    rw [hp] at hself
    obtain ⟨hwaits, hby, hw⟩ := hself
    obtain ⟨epoch, rfl⟩ := hd.ack_of_ok hwaits hx hok
    have hrest : commands rest = commands (d.downstream c) := by rw [hx, commands_ack]
    have hdown : ((d.goto c (.running w)).taken c rest).downstream c = rest :=
      Function.update_self ..
    refine orderly_of_others rfl (fun c' hc => (h c').same rfl ?_ rfl rfl) ⟨⟨?_, ?_⟩, ?_⟩
    · exact Function.update_of_ne hc _ _
    · rw [hdown, hrest]
      exact hwaits.sent
    · rw [hdown, hrest]
      exact hwaits.open_
    · show w = replay w.opts (d.handledBy c)
      rw [hby]
      exact hw
  | @gaveUp c p x rest delivered hp hx =>
    have hself := (h c).prefix_
    refine orderly_of_others rfl (fun c' hc => (h c').same rfl ?_ rfl rfl) hself
    exact Function.update_of_ne hc _ _
  | @handle c w x rest delivered hp hx =>
    have hself := h c
    rw [hp] at hself
    obtain ⟨hwaits, hreplay⟩ := orderly_handle delivered hx hself
    have hself : ((d.handle c w x x.message delivered).taken c rest).Orderly c
        (some (if (w.handleCommand x.message).1.stop then .exited
          else .running (w.handleCommand x.message).1)) := by
      by_cases hstop : (w.handleCommand x.message).1.stop = true
      · rw [if_pos hstop]
        exact ⟨_, hwaits.sent.symm⟩
      · rw [if_neg hstop]
        exact ⟨hwaits, hreplay⟩
    refine orderly_of_others rfl (fun c' hc => (h c').same ?_ ?_ ?_ ?_) hself
    · exact (handledBy_handle d c c' w x delivered).trans (by simp [Ne.symm hc])
    · exact Function.update_of_ne hc _ _
    · show (d.handle c w x x.message delivered).server.history.sent = _
      rcases server_handle d c w x delivered with he | ⟨cmd, m, rfl, he⟩
      · rw [he]
      · rw [he]
        rfl
    · show (d.handle c w x x.message delivered).server.outbound c' = _
      rcases server_handle d c w x delivered with he | ⟨cmd, m, rfl, he⟩
      · rw [he]
      · rw [he]
        exact Function.update_of_ne hc _ _
  | @exit c p hp =>
    have hself := (h c).prefix_
    exact orderly_of_others rfl (fun c' _ => (h c').same rfl rfl rfl rfl) hself

theorem accepted_move (hm : Move d a d')
    (h : ∀ c, d.processes c ≠ none → d.server.handlers c ≠ none) :
    ∀ c, d'.processes c ≠ none → d'.server.handlers c ≠ none := by
  have hgoto {c : ℕ} {p q : Process} (hp : d.processes c = some p) :
      ∀ c', (d.goto c q).processes c' ≠ none → d.server.handlers c' ≠ none := by
    intro c' hc'
    by_cases hc : c' = c
    · subst hc
      exact h c' (by simp [hp])
    · rw [show (d.goto c q).processes c' = d.processes c' from Function.update_of_ne hc _ _] at hc'
      exact h c' hc'
  cases hm with
  | coordinator hpermits hstep =>
    exact fun c hc => (Server.act_move hstep).accepted (h c hc)
  | @launch c opts server hstep =>
    cases Server.act_move hstep with
    | accept hnew =>
      intro c' hc'
      by_cases hc : c' = c
      · subst hc
        exact fun hnone => nomatch (Server.goto_self ..).symm.trans hnone
      · have hold : d.processes c' ≠ none := by
          intro hnone
          exact hc' ((Function.update_of_ne hc _ _).trans hnone)
        exact (Server.act_move hstep).accepted (h c' hold)
  | @register c w server hp hsize hstep =>
    intro c' hc'
    exact (Server.act_move hstep).accepted (hgoto (q := .registering w) hp c' hc')
  | @handle c w x rest delivered hp hx =>
    intro c' hc'
    have hhandlers : (d.handle c w x x.message delivered).server.handlers = d.server.handlers := by
      rcases server_handle d c w x delivered with he | ⟨cmd, m, rfl, he⟩
      · rw [he]
      · rw [he]
        rfl
    show (d.handle c w x x.message delivered).server.handlers c' ≠ none
    rw [hhandlers]
    exact hgoto hp c' hc'
  | registerLost hp => exact hgoto hp
  | registerLong hp => exact hgoto hp
  | acked hp hx hok => exact hgoto hp
  | gaveUp hp hx => exact hgoto hp
  | exit hp => exact hgoto hp

theorem Sound.move (hm : Move d a d') (h : d.Sound) : d'.Sound := by
  refine ⟨accepted_move hm h.accepted, h.orderly_move hm, ?_, ?_⟩
  · rcases hm.refines h with he | ⟨b, hstep, hbrings, -⟩
    · exact he ▸ h.upright
    · exact h.upright.move hstep hbrings
  · rcases hm.refines h with he | ⟨b, hstep, -⟩
    · exact he ▸ h.loads
    · exact h.loads.move (Server.act_move hstep) fun _ _ => trivial

theorem Initial.sound (h : Initial d) : d.Sound := by
  obtain ⟨s, hs, rfl⟩ := h
  refine ⟨fun c hc => absurd rfl hc, fun c => ?_, hs.upright, hs.loads _⟩
  obtain ⟨limits, rng, rfl⟩ := hs
  exact ⟨⟨rfl, List.suffix_rfl⟩, rfl⟩

end Deployment

end Coordinator

end AdapterFabric
