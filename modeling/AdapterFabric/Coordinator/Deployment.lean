import AdapterFabric.Coordinator.Correlation
import AdapterFabric.Coordinator.Worker

/-!
# AdapterFabric.Coordinator.Deployment

The coordinator together with the processes of its workers (`worker.hpp`, `worker.cpp`).

A worker connects, sends its registration, takes the next frame it receives for the acknowledgement,
and then handles command after command. The acknowledgement and the commands travel over the same
connection, and a command may be sent to a slot that was entered but not yet acknowledged. A process
may end at any time, and what it sends may be lost. Clients send any frames but registrations.

* `act_move`: the steps, case by case.
-/

namespace AdapterFabric

namespace Coordinator

/-- Where the process of a worker is. -/
inductive Process where
  /-- in `connect_and_register`: about to send its registration, then to receive the answer -/
  | connected (w : WorkerService)
  | registering (w : WorkerService)
  /-- in `run` -/
  | running (w : WorkerService)
  | exited

/-- What the coordinator sends to a worker. -/
inductive Delivery where
  /-- the acknowledgement of its registration, in an epoch -/
  | ack (epoch : UInt64)
  | command (cmd : Message)

def Delivery.message : Delivery → Message
  | ack epoch => { type := .wkRegisterAck, ok := true, a := epoch, text := decimal epoch.toNat }
  | command cmd => cmd

def Delivery.command? : Delivery → Option Message
  | ack _ => none
  | command cmd => some cmd

/-- A command that a worker has handled, and the worker before it. -/
structure Handled where
  conn : ℕ
  worker : WorkerService
  cmd : Message

structure Deployment where
  server : Server
  /-- the processes at the other ends of the connections of workers -/
  processes : ℕ → Option Process := fun _ => none
  /-- what was sent to a connection and not yet read, in order -/
  downstream : ℕ → List Delivery := fun _ => []
  /-- latest first -/
  handled : List Handled := []

/-- `recv_frame` gives up on longer frames. -/
def receivable (frame : Bytes) : Bool := frame.length ≤ 64 * 1024 * 1024

/-- What a process makes of the next frame: nothing, if it is too long or does not decode. -/
def receiveMessage (frame : Bytes) : Option Message :=
  if receivable frame then (decodeMessage frame).toOption else none

/-- The commands among what was sent. -/
def commands (xs : List Delivery) : List Message := xs.filterMap Delivery.command?

namespace Deployment

inductive Action where
  /-- a step of the coordinator or of a client -/
  | coordinator (a : Coordinator.Action)
  /-- a worker starts and connects -/
  | launch (conn : ℕ) (opts : WorkerOptions)
  /-- it sends its registration -/
  | register (conn : ℕ) (delivered : Bool)
  /-- it reads a frame and handles it; its reply, if it makes one, may be lost -/
  | receive (conn : ℕ) (delivered : Bool)
  | exit (conn : ℕ)

def goto (d : Deployment) (c : ℕ) (p : Process) : Deployment :=
  { d with processes := Function.update d.processes c (some p) }

/-- What clients may send: anything but registrations. Replies are left to the workers. -/
def permits (d : Deployment) : Coordinator.Action → Bool
  | .peer c frame =>
    (d.processes c).isNone &&
      match decodeMessage frame with
      | .error _ => true
      | .ok msg => msg.type ≠ .wkRegister
  | .reply _ _ _ => false
  | _ => true

/-- What a step of the coordinator sends to a worker. -/
def delivery (s : Server) : Coordinator.Action → Option (ℕ × Delivery)
  | .send c true =>
    match s.handlers c with
    | some (.acking _) => some (c, .ack s.shared.fabric.epoch.value)
    | some (.calling call (.sending slot _)) =>
      (s.slots slot).map fun sl => (sl.sock, .command call.command)
    | _ => none
  | _ => none

def deliver (x : Option (ℕ × Delivery)) (downstream : ℕ → List Delivery) : ℕ → List Delivery :=
  match x with
  | none => downstream
  | some (c, x) => Function.update downstream c (downstream c ++ [x])

/-- The coordinator's side of a reply: it arrives, and answers the first of the commands that the
worker had not read. -/
def reply (d : Deployment) (c : ℕ) (cmd m : Message) : Server :=
  let s := d.server
  let i := (s.outbound c).length - (commands (d.downstream c)).length
  { s with
    inbound := Function.update s.inbound c (s.inbound c ++ [encodeMessage m])
    outbound := Function.update s.outbound c ((s.outbound c).eraseIdx i)
    history := { s.history with replied := ⟨c, cmd, m⟩ :: s.history.replied } }

/-- `run` handles a frame, and goes on unless it is to stop. -/
def handle (d : Deployment) (c : ℕ) (w : WorkerService) (x : Delivery) (msg : Message)
    (delivered : Bool) : Deployment :=
  let (w', out) := w.handleCommand msg
  { d with
    server := if delivered then (out.map (d.reply c msg)).getD d.server else d.server
    handled := x.command?.toList.map (Handled.mk c w) ++ d.handled }.goto c
    (if w'.stop then .exited else .running w')

/-- A process at `c` reads `x`. -/
def read (d : Deployment) (c : ℕ) (x : Delivery) (delivered : Bool) : Process → Option Deployment
  | .registering w =>
    match receiveMessage (encodeMessage x.message) with
    | none => some (d.goto c .exited)
    | some ack => some (d.goto c (if ack.ok then .running w else .exited))
  | .running w =>
    match receiveMessage (encodeMessage x.message) with
    | none => some (d.goto c .exited)
    | some msg => some (d.handle c w x msg delivered)
  | _ => none

/-- The step of an action, if it can be taken. -/
def act (d : Deployment) (a : Action) : Option Deployment :=
  if d.server.terminated then none
  else
    match a with
    | .coordinator a =>
      if d.permits a then
        (d.server.act a).map fun server =>
          { d with server, downstream := deliver (delivery d.server a) d.downstream }
      else none
    | .launch c opts =>
      (d.server.act (.accept c)).map fun server =>
        { d with server }.goto c (.connected (.ofOptions opts))
    | .register c delivered =>
      match d.processes c with
      | some (.connected w) =>
        let frame := encodeMessage w.registration
        if ¬ delivered then some (d.goto c .exited)
        else if ¬ receivable frame then some (d.goto c (.registering w))
        else
          (d.server.act (.peer c frame)).map fun server =>
            { d with server }.goto c (.registering w)
      | _ => none
    | .receive c delivered =>
      match d.processes c, d.downstream c with
      | some p, x :: rest =>
        (d.read c x delivered p).map fun d' =>
          { d' with downstream := Function.update d'.downstream c rest }
      | _, _ => none
    | .exit c =>
      match d.processes c with
      | some _ => some (d.goto c .exited)
      | none => none

def Step (d : Deployment) (a : Action) (d' : Deployment) : Prop := d.act a = some d'

/-- A coordinator that has just been constructed, and no worker yet. -/
def Initial (d : Deployment) : Prop := ∃ s, Server.Initial s ∧ d = { server := s }

/-! ## Steps, case by case -/

section Frames

theorem length_encodeMessage (m : Message) :
    m.text.length + m.text2.length + m.text3.length + m.text4.length + m.payload.length ≤
      (encodeMessage m).length := by
  simp only [encodeMessage, finish, writeMessage, writeString, List.length_append]
  omega

theorem decodeMessage_of_receivable {m : Message} (h : receivable (encodeMessage m) = true) :
    decodeMessage (encodeMessage m) = .ok m := by
  have hlen : (encodeMessage m).length ≤ 64 * 1024 * 1024 := of_decide_eq_true h
  have hsum := length_encodeMessage m
  exact decodeMessage_encodeMessage (by constructor <;> omega)

theorem receiveMessage_encodeMessage {m msg : Message}
    (h : receiveMessage (encodeMessage m) = some msg) : msg = m := by
  unfold receiveMessage at h
  split at h
  · rename_i hsize
    rw [decodeMessage_of_receivable hsize] at h
    exact (Option.some.inj h).symm
  · cases h

end Frames

/-- The process of `c` has read `x`, and `rest` is left. -/
def taken (d : Deployment) (c : ℕ) (rest : List Delivery) : Deployment :=
  { d with downstream := Function.update d.downstream c rest }

/-- The steps, case by case. -/
inductive Move (d : Deployment) : Action → Deployment → Prop where
  | coordinator {a server} (hpermits : d.permits a = true) (hstep : Server.Step d.server a server) :
    Move d (.coordinator a)
      { d with server, downstream := deliver (delivery d.server a) d.downstream }
  | launch {c opts server} (hstep : Server.Step d.server (.accept c) server) :
    Move d (.launch c opts) ({ d with server }.goto c (.connected (.ofOptions opts)))
  | registerLost {c w} (hp : d.processes c = some (.connected w)) :
    Move d (.register c false) (d.goto c .exited)
  | registerLong {c w} (hp : d.processes c = some (.connected w)) :
    Move d (.register c true) (d.goto c (.registering w))
  | register {c w server} (hp : d.processes c = some (.connected w))
    (hsize : receivable (encodeMessage w.registration) = true)
    (hstep : Server.Step d.server (.peer c (encodeMessage w.registration)) server) :
    Move d (.register c true) ({ d with server }.goto c (.registering w))
  | acked {c w x rest delivered} (hp : d.processes c = some (.registering w))
    (hx : d.downstream c = x :: rest) (hok : x.message.ok = true) :
    Move d (.receive c delivered) ((d.goto c (.running w)).taken c rest)
  | gaveUp {c p x rest delivered} (hp : d.processes c = some p) (hx : d.downstream c = x :: rest) :
    Move d (.receive c delivered) ((d.goto c .exited).taken c rest)
  | handle {c w x rest delivered} (hp : d.processes c = some (.running w))
    (hx : d.downstream c = x :: rest) :
    Move d (.receive c delivered) ((d.handle c w x x.message delivered).taken c rest)
  | exit {c p} (hp : d.processes c = some p) : Move d (.exit c) (d.goto c .exited)

theorem read_move {d d' : Deployment} {c : ℕ} {p : Process} {x : Delivery} {rest : List Delivery}
    {delivered : Bool} (hp : d.processes c = some p) (hx : d.downstream c = x :: rest)
    (h : d.read c x delivered p = some d') :
    Move d (.receive c delivered) (d'.taken c rest) := by
  cases p with
  | registering w =>
    dsimp only [read] at h
    split at h
    · cases h
      exact .gaveUp hp hx
    · rename_i ack hack
      obtain rfl := receiveMessage_encodeMessage hack
      cases h
      split
      · rename_i hok
        exact .acked hp hx hok
      · exact .gaveUp hp hx
  | running w =>
    dsimp only [read] at h
    split at h
    · cases h
      exact .gaveUp hp hx
    · rename_i msg hmsg
      obtain rfl := receiveMessage_encodeMessage hmsg
      cases h
      exact .handle hp hx
  | connected w => cases h
  | exited => cases h

theorem act_move {d d' : Deployment} {a : Action} (h : Step d a d') : Move d a d' := by
  unfold Step act at h
  split at h
  · cases h
  cases a with
  | coordinator a =>
    dsimp only at h
    split at h
    · rename_i hpermits
      obtain ⟨server, hstep, rfl⟩ := Option.map_eq_some_iff.mp h
      exact .coordinator hpermits hstep
    · cases h
  | launch c opts =>
    obtain ⟨server, hstep, rfl⟩ := Option.map_eq_some_iff.mp h
    exact .launch hstep
  | register c delivered =>
    dsimp only at h
    split at h
    · rename_i w hp
      cases delivered with
      | false =>
        cases h
        exact .registerLost hp
      | true =>
        rw [if_neg (by simp)] at h
        split at h
        · cases h
          exact .registerLong hp
        · rename_i hsize
          obtain ⟨server, hstep, rfl⟩ := Option.map_eq_some_iff.mp h
          exact .register hp (by simpa using hsize) hstep
    · cases h
  | receive c delivered =>
    dsimp only at h
    split at h
    · rename_i p x rest hp hx
      obtain ⟨d', hread, rfl⟩ := Option.map_eq_some_iff.mp h
      exact read_move hp hx hread
    · cases h
  | exit c =>
    dsimp only at h
    split at h
    · rename_i p hp
      cases h
      exact .exit hp
    · cases h

end Deployment

end Coordinator

end AdapterFabric
