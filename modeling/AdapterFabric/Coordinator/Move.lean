import AdapterFabric.Coordinator.Server

/-!
# AdapterFabric.Coordinator.Move

The steps of the connection handlers, one case for each branch of their code.

* `act_move`: every step is one of these.
* `Move.fabric_cases`: what they do to the Fabric.
* `Resolved.move`: they keep every pointer pointing to an object.
-/

namespace AdapterFabric

namespace Coordinator

open Interleave

namespace Server

/-- The steps, branch by branch. -/
inductive Move (s : Server) : Action → Server → Prop where
  | accept {c} (hnew : s.handlers c = none) : Move s (.accept c) (s.goto c (.reading none))
  | peer {c frame h} (hh : s.handlers c = some h) :
    Move s (.peer c frame)
      { s with inbound := Function.update s.inbound c (s.inbound c ++ [frame]) }
  | reply {c i frame cmd msg} (hcmd : (s.outbound c)[i]? = some cmd)
    (hmsg : decodeMessage frame = .ok msg) :
    Move s (.reply c i frame)
      { s with
        inbound := Function.update s.inbound c (s.inbound c ++ [frame])
        outbound := Function.update s.outbound c ((s.outbound c).eraseIdx i)
        history := { s.history with replied := ⟨c, cmd, msg⟩ :: s.history.replied } }
  | hangup {c} (hh : s.handlers c = some (.reading none)) :
    Move s (.hangup c) (s.goto c (.returned none))
  | hangupWorker {c slot} (hh : s.handlers c = some (.reading (some slot))) :
    Move s (.hangup c) (s.goto c (.closing slot))
  | undecodable {c slot frame rest e} (hh : s.handlers c = some (.reading slot))
    (hin : s.inbound c = frame :: rest) (hmsg : decodeMessage frame = .error e) :
    Move s (.read c)
      ({ s with inbound := Function.update s.inbound c rest }.goto c (.returned slot))
  | register {c slot frame rest msg id boot} (hh : s.handlers c = some (.reading slot))
    (hin : s.inbound c = frame :: rest) (hmsg : decodeMessage frame = .ok msg)
    (htype : msg.type = .wkRegister) (hid : mustParse msg.text = .ok id)
    (hboot : mustParse msg.text2 = .ok boot) :
    Move s (.read c)
      ({ s with
        inbound := Function.update s.inbound c rest
        slots := Function.update s.slots s.nextRef
          (some { sock := c, id, boot, address := msg.text3, connected := true })
        nextRef := s.nextRef + 1 }.goto c (.inserting msg s.nextRef))
  | registerThrew {c slot frame rest} (hh : s.handlers c = some (.reading slot))
    (hin : s.inbound c = frame :: rest) :
    Move s (.read c)
      { s with inbound := Function.update s.inbound c rest, terminated := true }
  | readReply {c slot frame rest msg} (hh : s.handlers c = some (.reading (some slot)))
    (hin : s.inbound c = frame :: rest) (hmsg : decodeMessage frame = .ok msg)
    (htype : msg.type ≠ .wkRegister) (hid : msg.reqId ≠ 0) :
    Move s (.read c)
      ({ s with inbound := Function.update s.inbound c rest }.goto c (.finding msg slot))
  | readIgnored {c slot frame rest msg} (hh : s.handlers c = some (.reading (some slot)))
    (hin : s.inbound c = frame :: rest) (hmsg : decodeMessage frame = .ok msg)
    (htype : msg.type ≠ .wkRegister) (hid : msg.reqId = 0) :
    Move s (.read c)
      ({ s with inbound := Function.update s.inbound c rest }.goto c (.reading (some slot)))
  | readRequest {c frame rest msg} (hh : s.handlers c = some (.reading none))
    (hin : s.inbound c = frame :: rest) (hmsg : decodeMessage frame = .ok msg)
    (htype : msg.type ≠ .wkRegister) :
    Move s (.read c)
      ({ s with inbound := Function.update s.inbound c rest }.goto c
        (.serving (processControl msg)))
  | ack {c slot delivered} (hh : s.handlers c = some (.acking slot)) :
    Move s (.send c delivered) (s.goto c (.reading (some slot)))
  | answer {c out} (hh : s.handlers c = some (.serving (.done out))) :
    Move s (.send c true) (s.goto c (.reading none))
  | answerLost {c out} (hh : s.handlers c = some (.serving (.done out))) :
    Move s (.send c false) (s.goto c (.returned none))
  | sendCommand {c call slot pend sl}
    (hh : s.handlers c = some (.calling call (.sending slot pend)))
    (hsl : s.slots slot = some sl) :
    Move s (.send c true)
      ({ s with
        outbound := Function.update s.outbound sl.sock (s.outbound sl.sock ++ [call.command])
        history := { s.history with
          sent := ⟨sl.sock, call.workerId, call.command⟩ :: s.history.sent } }.goto c
        (.calling call (.waiting slot pend)))
  | sendLost {c call slot pend} (hh : s.handlers c = some (.calling call (.sending slot pend))) :
    Move s (.send c false) (s.goto c (.calling call .unsending))
  | enterSlot {c msg slot} (hh : s.handlers c = some (.inserting msg slot)) :
    Move s (.advance c)
      ({ s with
        workers := s.workers.insert msg.text slot
        history := { s.history with tabled := ⟨c, msg.text⟩ :: s.history.tabled } }.goto c
        (.registering msg slot))
  | enterFabric {c msg slot rec} (hh : s.handlers c = some (.registering msg slot))
    (hrec : parseRegistration s.shared.fabric.epoch msg = .ok rec) :
    Move s (.advance c)
      ({ s with
        shared := { s.shared with fabric := wkRegister s.shared.fabric msg }
        history := { s.history with
          registered := ⟨c, rec.id, rec.boot⟩ :: s.history.registered } }.goto c (.acking slot))
  | enterThrew {c msg slot} (hh : s.handlers c = some (.registering msg slot)) :
    Move s (.advance c) { s with terminated := true }
  | find {c msg slot pend} (hh : s.handlers c = some (.finding msg slot))
    (hpend : s.pending[msg.reqId]? = some pend) :
    Move s (.advance c) (s.goto c (.settling msg slot pend))
  | findNone {c msg slot} (hh : s.handlers c = some (.finding msg slot)) :
    Move s (.advance c) (s.goto c (.reading (some slot)))
  | settle {c msg slot pend} (hh : s.handlers c = some (.settling msg slot pend)) :
    Move s (.advance c)
      ({ s with
        pends := Function.update s.pends pend (some { done := true, result := msg }) }.goto c
        (.reading (some slot)))
  | locked {c sec k} (hh : s.handlers c = some (.serving (.perform (.locked sec) k))) :
    Move s (.advance c)
      ({ s with shared := (sec.run s.shared).2 }.goto c (.serving (k (sec.run s.shared).1)))
  | nextReq {c k} (hh : s.handlers c = some (.serving (.perform .nextReq k))) :
    Move s (.advance c)
      ({ s with
        shared := { s.shared with nextReq := s.shared.nextReq + 1 }
        history := { s.history with
          issued := ⟨c, s.shared.nextReq⟩ :: s.history.issued } }.goto c
        (.serving (k s.shared.nextReq)))
  | shutdown {c k} (hh : s.handlers c = some (.serving (.perform .shutdown k))) :
    Move s (.advance c)
      ({ s with shared := { s.shared with shutdown := true } }.goto c (.serving (k ())))
  | call {c reqId workerId fwd k}
    (hh : s.handlers c = some (.serving (.perform (.forward reqId workerId fwd) k))) :
    Move s (.advance c)
      ({ s with history := { s.history with
          called := ⟨c, reqId, workerId, fwd⟩ :: s.history.called } }.goto c
        (.calling ⟨reqId, workerId, fwd, k⟩ (.checking s.workers[workerId]?)))
  | checkFailed {c call slot} (hh : s.handlers c = some (.calling call (.checking slot))) :
    Move s (.advance c) (s.answerCall c call unknownWorker)
  | check {c call slot sl} (hh : s.handlers c = some (.calling call (.checking (some slot))))
    (hsl : s.slots slot = some sl) (hconn : sl.connected = true) :
    Move s (.advance c) (s.goto c (.calling call (.inserting slot)))
  | insert {c call slot} (hh : s.handlers c = some (.calling call (.inserting slot))) :
    Move s (.advance c)
      ({ s with
        pending := s.pending.insert call.reqId s.nextRef
        pends := Function.update s.pends s.nextRef (some {})
        nextRef := s.nextRef + 1
        history := { s.history with
          inserted := ⟨call.reqId, s.nextRef⟩ :: s.history.inserted } }.goto c
        (.calling call (.sending slot s.nextRef)))
  | unsend {c call} (hh : s.handlers c = some (.calling call .unsending)) :
    Move s (.advance c)
      ({ s with pending := s.pending.erase call.reqId }.answerCall c call sendFailed)
  | wake {c call slot pend pd} (hh : s.handlers c = some (.calling call (.waiting slot pend)))
    (hpd : s.pends pend = some pd) (hdone : pd.done = true) :
    Move s (.advance c) (s.goto c (.calling call (.erasing pd.result)))
  | erase {c call result} (hh : s.handlers c = some (.calling call (.erasing result))) :
    Move s (.advance c)
      ({ s with pending := s.pending.erase call.reqId }.answerCall c call result)
  | close {c slot} (hh : s.handlers c = some (.closing slot)) :
    Move s (.advance c)
      ({ s with
        slots := Function.update s.slots slot ((s.slots slot).map WorkerSlot.disconnect) }.goto c
        (.sweeping slot))
  | sweep {c slot} (hh : s.handlers c = some (.sweeping slot)) :
    Move s (.advance c)
      ({ s with
        pends := abortAll (s.pending.toList.map Prod.snd) s.pends }.goto c (.downing slot))
  | down {c slot sl} (hh : s.handlers c = some (.downing slot)) (hsl : s.slots slot = some sl) :
    Move s (.advance c)
      ({ s with
        shared := { s.shared with fabric := s.shared.fabric.onWorkerDown sl.id } }.goto c
        (.finished slot))

theorem callStep_move {s s' : Server} {c : ℕ} {call : Call} {phase : CallPhase}
    (hh : s.handlers c = some (.calling call phase)) (h : s.callStep c call phase = some s') :
    Move s (.advance c) s' := by
  cases phase with
  | checking slot =>
    cases slot with
    | none =>
      cases h
      exact .checkFailed hh
    | some slot =>
      dsimp only [callStep] at h
      split at h
      · cases h
      · rename_i sl hsl
        split at h
        · rename_i hconn
          cases h
          exact .check hh hsl hconn
        · cases h
          exact .checkFailed hh
  | inserting slot =>
    cases h
    exact .insert hh
  | sending slot pend => cases h
  | unsending =>
    cases h
    exact .unsend hh
  | waiting slot pend =>
    dsimp only [callStep] at h
    split at h
    · cases h
    · rename_i pd hpd
      split at h
      · rename_i hdone
        cases h
        exact .wake hh hpd hdone
      · cases h
  | erasing result =>
    cases h
    exact .erase hh

theorem perform_move {s : Server} {c : ℕ} {e : Effect}
    {k : e.Res → Prog Effect Effect.Res Message}
    (hh : s.handlers c = some (.serving (.perform e k))) :
    Move s (.advance c) (s.perform c e k) := by
  cases e with
  | locked sec => exact .locked hh
  | nextReq => exact .nextReq hh
  | forward reqId workerId fwd => exact .call hh
  | shutdown => exact .shutdown hh

theorem advance_move {s s' : Server} {c : ℕ} {h : Handler} (hh : s.handlers c = some h)
    (hact : s.advance c h = some s') : Move s (.advance c) s' := by
  cases h with
  | inserting msg slot =>
    cases hact
    exact .enterSlot hh
  | registering msg slot =>
    dsimp only [advance] at hact
    split at hact
    · cases hact
      exact .enterThrew hh
    · rename_i rec hrec
      cases hact
      exact .enterFabric hh hrec
  | finding msg slot =>
    dsimp only [advance] at hact
    split at hact
    · cases hact
      exact .findNone hh
    · rename_i pend hpend
      cases hact
      exact .find hh hpend
  | settling msg slot pend =>
    cases hact
    exact .settle hh
  | serving p =>
    cases p with
    | done out => cases hact
    | perform e k =>
      cases hact
      exact perform_move hh
  | calling call phase => exact callStep_move hh hact
  | closing slot =>
    cases hact
    exact .close hh
  | sweeping slot =>
    cases hact
    exact .sweep hh
  | downing slot =>
    dsimp only [advance] at hact
    split at hact
    · cases hact
    · rename_i sl hsl
      cases hact
      exact .down hh hsl
  | _ => cases hact

theorem send_move {s s' : Server} {c : ℕ} {delivered : Bool} {h : Handler}
    (hh : s.handlers c = some h) (hact : s.send c delivered h = some s') :
    Move s (.send c delivered) s' := by
  cases h with
  | acking slot =>
    cases hact
    exact .ack hh
  | serving p =>
    cases p with
    | done out =>
      cases delivered with
      | true =>
        cases hact
        exact .answer hh
      | false =>
        cases hact
        exact .answerLost hh
    | perform e k => cases hact
  | calling call phase =>
    cases phase with
    | sending slot pend =>
      dsimp only [send] at hact
      split at hact
      · cases hact
      · rename_i sl hsl
        cases delivered with
        | true =>
          cases hact
          exact .sendCommand hh hsl
        | false =>
          cases hact
          exact .sendLost hh
    | _ => cases hact
  | _ => cases hact

theorem receive_move {s : Server} {c : ℕ} {slot : Option ℕ} {frame : Bytes} {rest : List Bytes}
    (hh : s.handlers c = some (.reading slot)) (hin : s.inbound c = frame :: rest) :
    Move s (.read c)
      ({ s with inbound := Function.update s.inbound c rest }.receive c slot frame) := by
  unfold receive
  split
  · rename_i e hmsg
    exact .undecodable hh hin hmsg
  · rename_i msg hmsg
    split
    · rename_i htype
      split
      · rename_i id boot hid hboot
        exact .register hh hin hmsg htype hid hboot
      · exact .registerThrew hh hin
    · rename_i htype
      cases slot with
      | none => exact .readRequest hh hin hmsg htype
      | some slot =>
        dsimp only
        split
        · rename_i hid
          exact .readReply hh hin hmsg htype hid
        · rename_i hid
          exact .readIgnored hh hin hmsg htype (not_not.mp hid)

theorem act_move {s s' : Server} {a : Action} (h : s.Step a s') : Move s a s' := by
  unfold Step act at h
  split at h
  · cases h
  cases a with
  | accept c =>
    dsimp only at h
    split at h
    · rename_i hnew
      cases h
      exact .accept hnew
    · cases h
  | peer c frame =>
    dsimp only at h
    split at h
    · cases h
    · rename_i hh
      cases h
      exact .peer hh
  | reply c i frame =>
    dsimp only at h
    split at h
    · rename_i cmd msg hcmd hmsg
      cases h
      exact .reply hcmd hmsg
    · cases h
  | hangup c =>
    dsimp only at h
    split at h
    · rename_i hh
      cases h
      exact .hangup hh
    · rename_i slot hh
      cases h
      exact .hangupWorker hh
    · cases h
  | read c =>
    dsimp only at h
    split at h
    · rename_i slot frame rest hh hin
      cases h
      exact receive_move hh hin
    · cases h
  | send c delivered =>
    dsimp only at h
    split at h
    · rename_i hd hh
      exact send_move hh h
    · cases h
  | advance c =>
    dsimp only at h
    split at h
    · rename_i hd hh
      exact advance_move hh h
    · cases h

theorem Move.fabric_cases {s s' : Server} {a : Action} (hm : Move s a s') :
    s'.shared.fabric = s.shared.fabric ∨
    (∃ c sec k, s.handlers c = some (.serving (.perform (.locked sec) k)) ∧
      s'.shared = (sec.run s.shared).2) ∨
    (∃ msg, s'.shared.fabric = wkRegister s.shared.fabric msg) ∨
    ∃ id, s'.shared.fabric = s.shared.fabric.onWorkerDown id := by
  cases hm with
  | @locked c sec k hh => exact .inr (.inl ⟨c, sec, k, hh, rfl⟩)
  | @enterFabric c msg slot rec hh hrec => exact .inr (.inr (.inl ⟨msg, rfl⟩))
  | @down c slot sl hh hsl => exact .inr (.inr (.inr ⟨sl.id, rfl⟩))
  | _ => exact .inl rfl

theorem act_advance {s : Server} {c : ℕ} {h : Handler} (halive : s.terminated = false)
    (hh : s.handlers c = some h) : s.act (.advance c) = s.advance c h := by
  unfold act
  rw [if_neg (by simp [halive])]
  dsimp only
  rw [hh]

theorem act_read {s : Server} {c : ℕ} {slot : Option ℕ} {frame : Bytes} {rest : List Bytes}
    (halive : s.terminated = false) (hh : s.handlers c = some (.reading slot))
    (hin : s.inbound c = frame :: rest) :
    s.act (.read c) =
      some ({ s with inbound := Function.update s.inbound c rest }.receive c slot frame) := by
  unfold act
  rw [if_neg (by simp [halive])]
  dsimp only
  rw [hh, hin]

theorem act_send {s : Server} {c : ℕ} {h : Handler} (halive : s.terminated = false)
    (hh : s.handlers c = some h) (delivered : Bool) :
    s.act (.send c delivered) = s.send c delivered h := by
  unfold act
  rw [if_neg (by simp [halive])]
  dsimp only
  rw [hh]

theorem goto_self (s : Server) (c : ℕ) (h : Handler) : (s.goto c h).handlers c = some h :=
  Function.update_self ..

theorem goto_handlers (s : Server) {c c' : ℕ} (hc : c' ≠ c) (h : Handler) :
    (s.goto c h).handlers c' = s.handlers c' := Function.update_of_ne hc _ _

theorem answerCall_handlers (s : Server) {c c' : ℕ} (hc : c' ≠ c) (call : Call) (r : Message) :
    (s.answerCall c call r).handlers c' = s.handlers c' := Function.update_of_ne hc _ _

theorem Move.issued_le {s s' : Server} {a : Action} (hm : Move s a s') :
    s.history.issued.length ≤ s'.history.issued.length := by
  cases hm with
  | nextReq hh => exact Nat.le_succ _
  | _ => exact le_rfl

/-- A step is one of one handler, and leaves the others where they are. -/
theorem Move.handlers {s s' : Server} {a : Action} (h : Move s a s') {c : ℕ} (hc : c ≠ a.conn) :
    s'.handlers c = s.handlers c := by
  cases h with
  | peer hh => rfl
  | reply hcmd hmsg => rfl
  | registerThrew hh hin => rfl
  | enterThrew hh => rfl
  | unsend hh => exact answerCall_handlers _ hc _ _
  | erase hh => exact answerCall_handlers _ hc _ _
  | checkFailed hh => exact answerCall_handlers _ hc _ _
  | _ => exact goto_handlers _ hc _

theorem handlers_of_steps {s s' : Server} {as : List Action} (h : Run.Steps Step s as s') {c : ℕ}
    (hc : ∀ a ∈ as, c ≠ a.conn) : s'.handlers c = s.handlers c := by
  induction h with
  | nil => rfl
  | cons hstep _ ih =>
    rw [ih fun a ha => hc a (List.mem_cons_of_mem _ ha)]
    exact (act_move hstep).handlers (hc _ (List.mem_cons_self ..))

end Server

/-! ## Pointers -/

theorem Pending.abort_abort (pd : Pending) : pd.abort.abort = pd.abort := by
  unfold Pending.abort
  by_cases h : pd.done = true
  · simp [h]
  · simp [h]

theorem Pending.abort_done (pd : Pending) : pd.abort.done = true := by
  unfold Pending.abort
  by_cases h : pd.done = true
  · simp [h]
  · simp [h]

theorem abortAll_apply {refs : List ℕ} {ref : ℕ} : ∀ {pends : ℕ → Option Pending},
    abortAll refs pends ref = if ref ∈ refs then (pends ref).map Pending.abort else pends ref := by
  induction refs with
  | nil => simp [abortAll]
  | cons r refs ih =>
    intro pends
    have hcons : abortAll (r :: refs) pends ref =
        abortAll refs (Function.update pends r ((pends r).map Pending.abort)) ref := rfl
    rw [hcons, ih]
    by_cases hr : ref = r
    · subst hr
      rw [Function.update_self, Option.map_map, if_pos (List.mem_cons_self ..)]
      have habort : Pending.abort ∘ Pending.abort = Pending.abort := funext Pending.abort_abort
      rw [habort, ite_self]
    · rw [Function.update_of_ne hr]
      simp [hr]

theorem mem_pendingRefs {t : Std.ExtTreeMap UInt64 ℕ compare} {ref : ℕ} :
    ref ∈ t.toList.map Prod.snd ↔ ∃ n : UInt64, t[n]? = some ref := by
  rw [List.mem_map]
  constructor
  · rintro ⟨⟨n, r⟩, hmem, rfl⟩
    exact ⟨n, Std.ExtTreeMap.mem_toList_iff_getElem?_eq_some.mp hmem⟩
  · rintro ⟨n, hn⟩
    exact ⟨(n, ref), Std.ExtTreeMap.mem_toList_iff_getElem?_eq_some.mpr hn, rfl⟩

/-- The slots and the pending entries that a handler holds on to. -/
def CallPhase.slotRefs : CallPhase → List ℕ
  | checking slot => slot.toList
  | inserting slot => [slot]
  | sending slot _ => [slot]
  | unsending => []
  | waiting slot _ => [slot]
  | erasing _ => []

def CallPhase.pendRefs : CallPhase → List ℕ
  | sending _ pend => [pend]
  | waiting _ pend => [pend]
  | _ => []

def Handler.slotRefs : Handler → List ℕ
  | reading slot => slot.toList
  | inserting _ slot => [slot]
  | registering _ slot => [slot]
  | acking slot => [slot]
  | finding _ slot => [slot]
  | settling _ slot _ => [slot]
  | serving _ => []
  | calling _ phase => phase.slotRefs
  | closing slot => [slot]
  | sweeping slot => [slot]
  | downing slot => [slot]
  | finished slot => [slot]
  | returned slot => slot.toList

def Handler.pendRefs : Handler → List ℕ
  | settling _ _ pend => [pend]
  | calling _ phase => phase.pendRefs
  | _ => []

/-- Every pointer points to an object, and the next one is fresh. -/
structure Pointers (slots : ℕ → Option WorkerSlot) (pends : ℕ → Option Pending) (nextRef : ℕ)
    (workers : StrMap ℕ) (pending : Std.ExtTreeMap UInt64 ℕ compare)
    (handlers : ℕ → Option Handler) : Prop where
  slots_lt : ∀ ref, (slots ref).isSome = true → ref < nextRef
  pends_lt : ∀ ref, (pends ref).isSome = true → ref < nextRef
  workers : ∀ (text : Bytes) (ref : ℕ), workers[text]? = some ref → (slots ref).isSome = true
  pending : ∀ (n : UInt64) (ref : ℕ), pending[n]? = some ref → (pends ref).isSome = true
  slotRefs : ∀ c h, handlers c = some h → ∀ ref ∈ h.slotRefs, (slots ref).isSome = true
  pendRefs : ∀ c h, handlers c = some h → ∀ ref ∈ h.pendRefs, (pends ref).isSome = true

abbrev Server.Resolved (s : Server) : Prop :=
  Pointers s.slots s.pends s.nextRef s.workers s.pending s.handlers

theorem slots_newSlot {slots : ℕ → Option WorkerSlot} {ref ref' : ℕ} {sl : WorkerSlot}
    (hfresh : slots ref = none) (new : WorkerSlot) (h : slots ref' = some sl) :
    Function.update slots ref (some new) ref' = some sl := by
  have hne : ref' ≠ ref := by
    rintro rfl
    rw [hfresh] at h
    cases h
  rwa [Function.update_of_ne hne]

/-- A slot that loses its flag keeps its connection and its id. -/
theorem slots_disconnect {slots : ℕ → Option WorkerSlot} {ref' : ℕ} {sl : WorkerSlot} (ref : ℕ)
    (h : slots ref' = some sl) :
    ∃ sl', Function.update slots ref ((slots ref).map WorkerSlot.disconnect) ref' = some sl' ∧
      sl'.sock = sl.sock ∧ sl'.id = sl.id := by
  by_cases hr : ref' = ref
  · subst hr
    rw [Function.update_self, h]
    exact ⟨sl.disconnect, rfl, rfl, rfl⟩
  · rw [Function.update_of_ne hr]
    exact ⟨sl, h, rfl, rfl⟩

namespace Pointers

variable {slots slots' : ℕ → Option WorkerSlot} {pends pends' : ℕ → Option Pending} {nextRef : ℕ}
  {workers : StrMap ℕ} {pending : Std.ExtTreeMap UInt64 ℕ compare}
  {handlers : ℕ → Option Handler} {c : ℕ} {h : Handler}

theorem goto (hp : Pointers slots pends nextRef workers pending handlers)
    (hslots : ∀ ref ∈ h.slotRefs, (slots ref).isSome = true)
    (hpends : ∀ ref ∈ h.pendRefs, (pends ref).isSome = true) :
    Pointers slots pends nextRef workers pending (Function.update handlers c (some h)) := by
  refine ⟨hp.slots_lt, hp.pends_lt, hp.workers, hp.pending, ?_, ?_⟩
  · intro d hd hh
    rcases Table.of_update hh with ⟨-, rfl⟩ | ⟨-, hh⟩
    · exact hslots
    · exact hp.slotRefs d hd hh
  · intro d hd hh
    rcases Table.of_update hh with ⟨-, rfl⟩ | ⟨-, hh⟩
    · exact hpends
    · exact hp.pendRefs d hd hh

theorem fresh_slot (hp : Pointers slots pends nextRef workers pending handlers) :
    slots nextRef = none := by
  by_contra hsome
  have := hp.slots_lt nextRef (Option.isSome_iff_ne_none.mpr hsome)
  omega

theorem objects (hp : Pointers slots pends nextRef workers pending handlers)
    (hslots : ∀ ref, (slots' ref).isSome = (slots ref).isSome)
    (hpends : ∀ ref, (pends' ref).isSome = (pends ref).isSome) :
    Pointers slots' pends' nextRef workers pending handlers := by
  constructor
  · simpa only [hslots] using hp.slots_lt
  · simpa only [hpends] using hp.pends_lt
  · simpa only [hslots] using hp.workers
  · simpa only [hpends] using hp.pending
  · simpa only [hslots] using hp.slotRefs
  · simpa only [hpends] using hp.pendRefs

theorem newSlot (hp : Pointers slots pends nextRef workers pending handlers) (sl : WorkerSlot) :
    Pointers (Function.update slots nextRef (some sl)) pends (nextRef + 1) workers pending
      handlers := by
  have hkept (ref : ℕ) (h : (slots ref).isSome = true) :
      (Function.update slots nextRef (some sl) ref).isSome = true := by
    by_cases hr : ref = nextRef
    · rw [hr, Function.update_self]
      rfl
    · rwa [Function.update_of_ne hr]
  refine ⟨?_, ?_, ?_, hp.pending, ?_, hp.pendRefs⟩
  · intro ref href
    by_cases hr : ref = nextRef
    · omega
    · rw [Function.update_of_ne hr] at href
      have := hp.slots_lt ref href
      omega
  · intro ref href
    have := hp.pends_lt ref href
    omega
  · exact fun text ref href => hkept ref (hp.workers text ref href)
  · exact fun d hd hh ref href => hkept ref (hp.slotRefs d hd hh ref href)

theorem newPend (hp : Pointers slots pends nextRef workers pending handlers) (pd : Pending)
    (n : UInt64) :
    Pointers slots (Function.update pends nextRef (some pd)) (nextRef + 1) workers
      (pending.insert n nextRef) handlers := by
  have hkept (ref : ℕ) (h : (pends ref).isSome = true) :
      (Function.update pends nextRef (some pd) ref).isSome = true := by
    by_cases hr : ref = nextRef
    · rw [hr, Function.update_self]
      rfl
    · rwa [Function.update_of_ne hr]
  refine ⟨?_, ?_, hp.workers, ?_, hp.slotRefs, ?_⟩
  · intro ref href
    have := hp.slots_lt ref href
    omega
  · intro ref href
    by_cases hr : ref = nextRef
    · omega
    · rw [Function.update_of_ne hr] at href
      have := hp.pends_lt ref href
      omega
  · intro k ref hk
    rcases Table.of_insert hk with ⟨_, rfl⟩ | hk
    · rw [Function.update_self]
      rfl
    · exact hkept ref (hp.pending k ref hk)
  · exact fun d hd hh ref href => hkept ref (hp.pendRefs d hd hh ref href)

theorem enterWorker (hp : Pointers slots pends nextRef workers pending handlers) {text : Bytes}
    {slot : ℕ} (hslot : (slots slot).isSome = true) :
    Pointers slots pends nextRef (workers.insert text slot) pending handlers := by
  refine ⟨hp.slots_lt, hp.pends_lt, fun k ref hk => ?_, hp.pending, hp.slotRefs, hp.pendRefs⟩
  rcases Table.of_insert hk with ⟨_, rfl⟩ | hk
  · exact hslot
  · exact hp.workers k ref hk

theorem erasePending (hp : Pointers slots pends nextRef workers pending handlers) (n : UInt64) :
    Pointers slots pends nextRef workers (pending.erase n) handlers :=
  ⟨hp.slots_lt, hp.pends_lt, hp.workers, fun k ref hk => hp.pending k ref (Table.of_erase hk),
    hp.slotRefs, hp.pendRefs⟩

theorem setPend (hp : Pointers slots pends nextRef workers pending handlers) {pend : ℕ}
    (hpend : (pends pend).isSome = true) (pd : Pending) :
    Pointers slots (Function.update pends pend (some pd)) nextRef workers pending handlers := by
  refine hp.objects (fun _ => rfl) fun ref => ?_
  by_cases hr : ref = pend
  · rw [hr, Function.update_self, hpend]
    rfl
  · rw [Function.update_of_ne hr]

theorem disconnect (hp : Pointers slots pends nextRef workers pending handlers) (slot : ℕ) :
    Pointers (Function.update slots slot ((slots slot).map WorkerSlot.disconnect)) pends nextRef
      workers pending handlers := by
  refine hp.objects (fun ref => ?_) fun _ => rfl
  by_cases hr : ref = slot
  · rw [hr, Function.update_self, Option.isSome_map]
  · rw [Function.update_of_ne hr]

theorem abortAll (hp : Pointers slots pends nextRef workers pending handlers) (refs : List ℕ) :
    Pointers slots (abortAll refs pends) nextRef workers pending handlers := by
  refine hp.objects (fun _ => rfl) fun ref => ?_
  rw [abortAll_apply]
  split
  · rw [Option.isSome_map]
  · rfl

end Pointers

namespace Server

variable {s s' : Server}

theorem Resolved.slot (h : s.Resolved) {c ref : ℕ} {hd : Handler} (hh : s.handlers c = some hd)
    (href : ref ∈ hd.slotRefs) : (s.slots ref).isSome = true := h.slotRefs c hd hh ref href

theorem Resolved.pend (h : s.Resolved) {c ref : ℕ} {hd : Handler} (hh : s.handlers c = some hd)
    (href : ref ∈ hd.pendRefs) : (s.pends ref).isSome = true := h.pendRefs c hd hh ref href

theorem Resolved.keep (h : s.Resolved) {c : ℕ} {hd hd' : Handler} (hh : s.handlers c = some hd)
    (hslots : ∀ ref ∈ hd'.slotRefs, ref ∈ hd.slotRefs)
    (hpends : ∀ ref ∈ hd'.pendRefs, ref ∈ hd.pendRefs) : (s.goto c hd').Resolved :=
  h.goto (fun ref href => h.slot hh (hslots ref href)) fun ref href => h.pend hh (hpends ref href)

theorem Resolved.move {a : Action} (hm : Move s a s') (h : s.Resolved) : s'.Resolved := by
  cases hm with
  | accept hnew => exact h.goto (by simp [Handler.slotRefs]) (by simp [Handler.pendRefs])
  | peer hh => exact h
  | reply hcmd hmsg => exact h
  | hangup hh => exact h.keep hh (by simp [Handler.slotRefs]) (by simp [Handler.pendRefs])
  | hangupWorker hh => exact h.keep hh (by simp [Handler.slotRefs]) (by simp [Handler.pendRefs])
  | undecodable hh hin hmsg =>
    exact h.keep hh (by simp [Handler.slotRefs]) (by simp [Handler.pendRefs])
  | register hh hin hmsg htype hid hboot =>
    refine (h.newSlot _).goto ?_ (by simp [Handler.pendRefs])
    intro ref href
    rw [List.mem_singleton.mp href, Function.update_self]
    rfl
  | registerThrew hh hin => exact h
  | readReply hh hin hmsg htype hid =>
    exact h.keep hh (by simp [Handler.slotRefs]) (by simp [Handler.pendRefs])
  | readIgnored hh hin hmsg htype hid =>
    exact h.keep hh (by simp [Handler.slotRefs]) (by simp [Handler.pendRefs])
  | readRequest hh hin hmsg htype =>
    exact h.keep hh (by simp [Handler.slotRefs]) (by simp [Handler.pendRefs])
  | ack hh => exact h.keep hh (by simp [Handler.slotRefs]) (by simp [Handler.pendRefs])
  | answer hh => exact h.keep hh (by simp [Handler.slotRefs]) (by simp [Handler.pendRefs])
  | answerLost hh => exact h.keep hh (by simp [Handler.slotRefs]) (by simp [Handler.pendRefs])
  | sendCommand hh hsl =>
    exact h.keep hh (by simp [Handler.slotRefs, CallPhase.slotRefs])
      (by simp [Handler.pendRefs, CallPhase.pendRefs])
  | sendLost hh =>
    exact h.keep hh (by simp [Handler.slotRefs, CallPhase.slotRefs])
      (by simp [Handler.pendRefs, CallPhase.pendRefs])
  | enterSlot hh =>
    refine Pointers.goto (h.enterWorker (h.slot hh (List.mem_singleton_self _))) ?_
      (by simp [Handler.pendRefs])
    exact fun ref href => h.slot hh href
  | enterFabric hh hrec =>
    exact h.keep hh (by simp [Handler.slotRefs]) (by simp [Handler.pendRefs])
  | enterThrew hh => exact h
  | find hh hpend =>
    refine h.goto (fun ref href => h.slot hh href) fun ref href => ?_
    rw [List.mem_singleton.mp href]
    exact h.pending _ _ hpend
  | findNone hh => exact h.keep hh (by simp [Handler.slotRefs]) (by simp [Handler.pendRefs])
  | settle hh =>
    exact (h.setPend (h.pend hh (List.mem_singleton_self _)) _).goto
      (fun ref href => h.slot hh (by simpa [Handler.slotRefs] using href))
      (by simp [Handler.pendRefs])
  | locked hh => exact h.keep hh (by simp [Handler.slotRefs]) (by simp [Handler.pendRefs])
  | nextReq hh => exact h.keep hh (by simp [Handler.slotRefs]) (by simp [Handler.pendRefs])
  | shutdown hh => exact h.keep hh (by simp [Handler.slotRefs]) (by simp [Handler.pendRefs])
  | @call c reqId workerId fwd k hh =>
    refine h.goto (fun ref href => h.workers workerId ref ?_)
      (by simp [Handler.pendRefs, CallPhase.pendRefs])
    simpa [Handler.slotRefs, CallPhase.slotRefs] using href
  | checkFailed hh => exact h.keep hh (by simp [Handler.slotRefs]) (by simp [Handler.pendRefs])
  | check hh hsl hconn =>
    exact h.keep hh (by simp [Handler.slotRefs, CallPhase.slotRefs])
      (by simp [Handler.pendRefs, CallPhase.pendRefs])
  | @insert c call slot hh =>
    refine (h.newPend {} call.reqId).goto (fun ref href => h.slot hh href) fun ref href => ?_
    rw [List.mem_singleton.mp href, Function.update_self]
    rfl
  | unsend hh =>
    exact Pointers.goto (h.erasePending _) (by simp [Handler.slotRefs]) (by simp [Handler.pendRefs])
  | wake hh hpd hdone =>
    exact h.keep hh (by simp [Handler.slotRefs, CallPhase.slotRefs])
      (by simp [Handler.pendRefs, CallPhase.pendRefs])
  | erase hh =>
    exact Pointers.goto (h.erasePending _) (by simp [Handler.slotRefs]) (by simp [Handler.pendRefs])
  | close hh =>
    refine (h.disconnect _).goto (fun ref href => ?_) (by simp [Handler.pendRefs])
    rw [List.mem_singleton.mp href, Function.update_self, Option.isSome_map]
    exact h.slot hh (List.mem_singleton_self _)
  | sweep hh =>
    exact (h.abortAll _).goto (fun ref href => h.slot hh href) (by simp [Handler.pendRefs])
  | down hh hsl => exact h.keep hh (by simp [Handler.slotRefs]) (by simp [Handler.pendRefs])

theorem Initial.resolved (h : Initial s) : s.Resolved := by
  obtain ⟨limits, rng, rfl⟩ := h
  constructor
  · intro ref href
    cases href
  · intro ref href
    cases href
  · intro text ref href
    have href : (∅ : StrMap ℕ)[text]? = some ref := href
    rw [Std.ExtTreeMap.getElem?_empty] at href
    cases href
  · intro n ref href
    have href : (∅ : Std.ExtTreeMap UInt64 ℕ compare)[n]? = some ref := href
    rw [Std.ExtTreeMap.getElem?_empty] at href
    cases href
  · intro c h hh
    cases hh
  · intro c h hh
    cases hh

end Server

end Coordinator

end AdapterFabric
