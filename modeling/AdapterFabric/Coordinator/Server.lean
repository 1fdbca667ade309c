import AdapterFabric.Coordinator.Control

/-!
# AdapterFabric.Coordinator.Server

The connection handlers of the coordinator and everything they share (`coordinator.hpp`,
`coordinator.cpp`).

One step of a handler is what it does under one mutex, or one access to a socket or to a flag that
no mutex guards; between two steps of one handler any others may run. Peers may send any frames at
any time, workers answer the commands they were sent in any order, a connection may end whenever its
handler is about to read, and a send may succeed or fail.

`act` gives the step of an action, if it can be taken.
-/

namespace AdapterFabric

namespace Coordinator

open Interleave

/-! ## State -/

/-- `CoordinatorServer::WorkerSlot`; `sock` is the connection whose handler made the slot. -/
structure WorkerSlot where
  sock : ℕ
  id : WorkerId
  boot : WorkerBootId
  address : Bytes
  connected : Bool

def WorkerSlot.disconnect (sl : WorkerSlot) : WorkerSlot := { sl with connected := false }

/-- `CoordinatorServer::Pending`. -/
structure Pending where
  done : Bool := false
  result : Message := {}

/-- A call of `forward_to_worker`, with what its request goes on with. -/
structure Call where
  reqId : UInt64
  workerId : Bytes
  fwd : Message
  k : Message → Prog Effect Effect.Res Message

def Call.command (call : Call) : Message := { call.fwd with reqId := call.reqId }

/-- Where a call of `forward_to_worker` is; the numbers stand for shared pointers. -/
inductive CallPhase where
  | checking (slot : Option ℕ)
  | inserting (slot : ℕ)
  | sending (slot pend : ℕ)
  | unsending
  | waiting (slot pend : ℕ)
  | erasing (result : Message)

/-- Where `handle_connection` is. At the top of its loop it is a worker's handler (`is_worker`) if
it has a slot. -/
inductive Handler where
  | reading (slot : Option ℕ)
  /-- a registration: about to enter the slot into `workers_`, then into the Fabric, then to ack -/
  | inserting (msg : Message) (slot : ℕ)
  | registering (msg : Message) (slot : ℕ)
  | acking (slot : ℕ)
  /-- a reply: about to look for its pending entry, then to complete the entry -/
  | finding (msg : Message) (slot : ℕ)
  | settling (msg : Message) (slot pend : ℕ)
  /-- in `process_control`, or about to send what it returned -/
  | serving (p : Prog Effect Effect.Res Message)
  | calling (call : Call) (phase : CallPhase)
  /-- the teardown: about to clear the slot's flag, then to abort, then to tell the Fabric -/
  | closing (slot : ℕ)
  | sweeping (slot : ℕ)
  | downing (slot : ℕ)
  /-- has returned, after the teardown or without one -/
  | finished (slot : ℕ)
  | returned (slot : Option ℕ)

/-! What happened so far, latest first. -/

structure Issue where
  conn : ℕ
  reqId : UInt64

structure Called where
  conn : ℕ
  reqId : UInt64
  workerId : Bytes
  fwd : Message

structure Tabled where
  conn : ℕ
  workerId : Bytes

structure Registered where
  conn : ℕ
  id : WorkerId
  boot : WorkerBootId

structure Inserted where
  reqId : UInt64
  pend : ℕ

structure Sent where
  conn : ℕ
  workerId : Bytes
  cmd : Message

structure Replied where
  conn : ℕ
  cmd : Message
  reply : Message

structure Returned where
  call : Called
  result : Message

structure History where
  issued : List Issue := []
  called : List Called := []
  tabled : List Tabled := []
  registered : List Registered := []
  inserted : List Inserted := []
  sent : List Sent := []
  replied : List Replied := []
  returned : List Returned := []

structure Server where
  shared : Shared
  /-- `workers_` and `pending_`, and the objects that they and the handlers point to -/
  workers : StrMap ℕ := ∅
  slots : ℕ → Option WorkerSlot := fun _ => none
  pending : Std.ExtTreeMap UInt64 ℕ compare := ∅
  pends : ℕ → Option Pending := fun _ => none
  nextRef : ℕ := 0
  handlers : ℕ → Option Handler := fun _ => none
  /-- frames that were sent to a connection and not yet read, and commands sent over it that its
  worker has not answered -/
  inbound : ℕ → List Bytes := fun _ => []
  outbound : ℕ → List Message := fun _ => []
  /-- an exception has left a thread -/
  terminated : Bool := false
  history : History := {}

/-! ## Messages of the coordinator -/

def unknownWorker : Message :=
  { type := .wkError, ok := false, text := ascii "unknown or disconnected worker" }

def sendFailed : Message :=
  { type := .wkError, ok := false, text := ascii "send to worker failed" }

/-- What `abort_pending_for_worker` does to an entry. -/
def Pending.abort (pd : Pending) : Pending :=
  if pd.done then pd
  else
    { done := true
      result := { pd.result with
        type := .wkError, ok := false, text := ascii "worker disconnected" } }

/-- Its loop, whichever worker it is called for. -/
def abortAll (refs : List ℕ) (pends : ℕ → Option Pending) : ℕ → Option Pending :=
  refs.foldl (fun pends pend => Function.update pends pend ((pends pend).map Pending.abort)) pends

/-! ## Steps -/

inductive Action where
  /-- a client connects -/
  | accept (conn : ℕ)
  /-- the peer sends a frame of its own accord -/
  | peer (conn : ℕ) (frame : Bytes)
  /-- the worker answers the `i`-th command that waits for it -/
  | reply (conn i : ℕ) (frame : Bytes)
  /-- the handler finds the end of the stream or a bad frame, or sees `shutdown_` -/
  | hangup (conn : ℕ)
  /-- the handler reads a frame -/
  | read (conn : ℕ)
  /-- the handler sends what it is about to send; it may be lost -/
  | send (conn : ℕ) (delivered : Bool)
  /-- any other step of the handler -/
  | advance (conn : ℕ)

def Action.conn : Action → ℕ
  | accept c => c
  | peer c _ => c
  | reply c _ _ => c
  | hangup c => c
  | read c => c
  | send c _ => c
  | advance c => c

namespace Server

def goto (s : Server) (c : ℕ) (h : Handler) : Server :=
  { s with handlers := Function.update s.handlers c (some h) }

/-- A call returns `r` to its request. -/
def answerCall (s : Server) (c : ℕ) (call : Call) (r : Message) : Server :=
  { s with history := { s.history with
      returned := ⟨⟨c, call.reqId, call.workerId, call.fwd⟩, r⟩ :: s.history.returned } }.goto c
    (.serving (call.k r))

/-- What the handler makes of a frame that it has read. -/
def receive (s : Server) (c : ℕ) (slot : Option ℕ) (frame : Bytes) : Server :=
  match decodeMessage frame with
  | .error _ => s.goto c (.returned slot)
  | .ok msg =>
    if msg.type = .wkRegister then
      match mustParse msg.text, mustParse msg.text2 with
      | .ok id, .ok boot =>
        { s with
          slots := Function.update s.slots s.nextRef
            (some { sock := c, id, boot, address := msg.text3, connected := true })
          nextRef := s.nextRef + 1 }.goto c (.inserting msg s.nextRef)
      | _, _ => { s with terminated := true }
    else
      match slot with
      | some slot =>
        if msg.reqId ≠ 0 then s.goto c (.finding msg slot) else s.goto c (.reading (some slot))
      | none => s.goto c (.serving (processControl msg))

/-- The next effect of `process_control`; of `forward_to_worker`, the look at `workers_`. -/
def perform (s : Server) (c : ℕ) : (e : Effect) → (e.Res → Prog Effect Effect.Res Message) → Server
  | .locked sec, k =>
    { s with shared := (sec.run s.shared).2 }.goto c (.serving (k (sec.run s.shared).1))
  | .nextReq, k =>
    { s with
      shared := { s.shared with nextReq := s.shared.nextReq + 1 }
      history := { s.history with
        issued := ⟨c, s.shared.nextReq⟩ :: s.history.issued } }.goto c
      (.serving (k s.shared.nextReq))
  | .forward reqId workerId fwd, k =>
    { s with history := { s.history with
        called := ⟨c, reqId, workerId, fwd⟩ :: s.history.called } }.goto c
      (.calling ⟨reqId, workerId, fwd, k⟩ (.checking s.workers[workerId]?))
  | .shutdown, k =>
    { s with shared := { s.shared with shutdown := true } }.goto c (.serving (k ()))

/-- The other steps of `forward_to_worker`, but for its send. -/
def callStep (s : Server) (c : ℕ) (call : Call) : CallPhase → Option Server
  | .checking none => some (s.answerCall c call unknownWorker)
  | .checking (some slot) =>
    match s.slots slot with
    | none => none
    | some sl =>
      if sl.connected then some (s.goto c (.calling call (.inserting slot)))
      else some (s.answerCall c call unknownWorker)
  | .inserting slot =>
    some ({ s with
      pending := s.pending.insert call.reqId s.nextRef
      pends := Function.update s.pends s.nextRef (some {})
      nextRef := s.nextRef + 1
      history := { s.history with
        inserted := ⟨call.reqId, s.nextRef⟩ :: s.history.inserted } }.goto c
      (.calling call (.sending slot s.nextRef)))
  | .sending _ _ => none
  | .unsending =>
    some ({ s with pending := s.pending.erase call.reqId }.answerCall c call sendFailed)
  | .waiting _ pend =>
    match s.pends pend with
    | none => none
    | some pd => if pd.done then some (s.goto c (.calling call (.erasing pd.result))) else none
  | .erasing result =>
    some ({ s with pending := s.pending.erase call.reqId }.answerCall c call result)

/-- The steps of a handler that neither read nor send. -/
def advance (s : Server) (c : ℕ) : Handler → Option Server
  | .inserting msg slot =>
    some ({ s with
      workers := s.workers.insert msg.text slot
      history := { s.history with tabled := ⟨c, msg.text⟩ :: s.history.tabled } }.goto c
      (.registering msg slot))
  | .registering msg slot =>
    match parseRegistration s.shared.fabric.epoch msg with
    | .error _ => some { s with terminated := true }
    | .ok rec =>
      some ({ s with
        shared := { s.shared with fabric := wkRegister s.shared.fabric msg }
        history := { s.history with
          registered := ⟨c, rec.id, rec.boot⟩ :: s.history.registered } }.goto c (.acking slot))
  | .finding msg slot =>
    match s.pending[msg.reqId]? with
    | none => some (s.goto c (.reading (some slot)))
    | some pend => some (s.goto c (.settling msg slot pend))
  | .settling msg slot pend =>
    some ({ s with
      pends := Function.update s.pends pend (some { done := true, result := msg }) }.goto c
      (.reading (some slot)))
  | .serving (.perform e k) => some (s.perform c e k)
  | .calling call phase => s.callStep c call phase
  | .closing slot =>
    some ({ s with
      slots := Function.update s.slots slot
        ((s.slots slot).map WorkerSlot.disconnect) }.goto c (.sweeping slot))
  | .sweeping slot =>
    some ({ s with
      pends := abortAll (s.pending.toList.map Prod.snd) s.pends }.goto c (.downing slot))
  | .downing slot =>
    match s.slots slot with
    | none => none
    | some sl =>
      some ({ s with
        shared := { s.shared with fabric := s.shared.fabric.onWorkerDown sl.id } }.goto c
        (.finished slot))
  | _ => none

/-- A send of the handler. A lost ack is not noticed. -/
def send (s : Server) (c : ℕ) (delivered : Bool) : Handler → Option Server
  | .acking slot => some (s.goto c (.reading (some slot)))
  | .serving (.done _) => some (s.goto c (if delivered then .reading none else .returned none))
  | .calling call (.sending slot pend) =>
    match s.slots slot with
    | none => none
    | some sl =>
      if delivered then
        some ({ s with
          outbound := Function.update s.outbound sl.sock (s.outbound sl.sock ++ [call.command])
          history := { s.history with
            sent := ⟨sl.sock, call.workerId, call.command⟩ :: s.history.sent } }.goto c
          (.calling call (.waiting slot pend)))
      else some (s.goto c (.calling call .unsending))
  | _ => none

/-- The step of an action, if it can be taken. -/
def act (s : Server) (a : Action) : Option Server :=
  if s.terminated then none
  else
    match a with
    | .accept c =>
      match s.handlers c with
      | none => some (s.goto c (.reading none))
      | some _ => none
    | .peer c frame =>
      match s.handlers c with
      | none => none
      | some _ =>
        some { s with inbound := Function.update s.inbound c (s.inbound c ++ [frame]) }
    | .reply c i frame =>
      match (s.outbound c)[i]?, decodeMessage frame with
      | some cmd, .ok msg =>
        some { s with
          inbound := Function.update s.inbound c (s.inbound c ++ [frame])
          outbound := Function.update s.outbound c ((s.outbound c).eraseIdx i)
          history := { s.history with replied := ⟨c, cmd, msg⟩ :: s.history.replied } }
      | _, _ => none
    | .hangup c =>
      match s.handlers c with
      | some (.reading none) => some (s.goto c (.returned none))
      | some (.reading (some slot)) => some (s.goto c (.closing slot))
      | _ => none
    | .read c =>
      match s.handlers c, s.inbound c with
      | some (.reading slot), frame :: rest =>
        some ({ s with inbound := Function.update s.inbound c rest }.receive c slot frame)
      | _, _ => none
    | .send c delivered =>
      match s.handlers c with
      | some h => s.send c delivered h
      | none => none
    | .advance c =>
      match s.handlers c with
      | some h => s.advance c h
      | none => none

def Step (s : Server) (a : Action) (s' : Server) : Prop := s.act a = some s'

/-- A coordinator that has just been constructed. -/
def Initial (s : Server) : Prop :=
  ∃ limits rng, s = { shared := { fabric := .ofLimits limits, rng } }

end Server

end Coordinator

end AdapterFabric
