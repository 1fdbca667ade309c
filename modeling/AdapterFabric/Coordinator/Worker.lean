import AdapterFabric.Fabric.State

/-!
# AdapterFabric.Coordinator.Worker

The worker service: how it registers and how it handles the commands of the coordinator
(`worker.hpp`, `worker.cpp`).

* `handleCommand_reply`: a command is answered with its own id, and ok.
* `handleCommand_keeps`: activation and deactivation leave the worker as it was.
-/

namespace AdapterFabric

structure WorkerOptions where
  coordinatorHost : Bytes := ascii "127.0.0.1"
  coordinatorPort : UInt16 := 0
  id : WorkerId := .nil
  node : NodeId := .nil
  name : Bytes := []
  bootSeed : UInt64 := 1

structure WorkerService where
  opts : WorkerOptions
  boot : WorkerBootId
  /-- what is ready, and its bytes, under the text of the adapter -/
  localResidency : StrMap (Bool × UInt64) := ∅
  stop : Bool := false

namespace WorkerService

/-- A fresh process: a boot derived from the seed, and no residency. -/
def ofOptions (opts : WorkerOptions) : WorkerService where
  opts
  boot := (Id.generate ⟨opts.bootSeed⟩).1

/-- The message of `connect_and_register`. -/
def registration (w : WorkerService) : Message where
  type := .wkRegister
  text := w.opts.id.str
  text2 := w.boot.str
  text3 := w.opts.name ++ ascii "@" ++ w.opts.coordinatorHost ++ ascii ":" ++
    decimal w.opts.coordinatorPort.toNat
  text4 := w.opts.node.str

def reply (req : Message) (type : MsgType) (ok : Bool) (bytes : UInt64) (note : Bytes) : Message :=
  { type, reqId := req.reqId, ok, a := bytes, text := note }

/-- The worker after the command, and what it replies if it does. -/
def handleCommand (w : WorkerService) (msg : Message) : WorkerService × Option Message :=
  if msg.type = .wkLoad then
    let bytes := if msg.a = 0 then 1 else msg.a
    ({ w with localResidency := w.localResidency.insert msg.text (true, bytes) },
      some (reply msg .wkLoadAck true bytes (ascii "loaded")))
  else if msg.type = .wkActivate then
    (w, some (reply msg .wkActivateAck true ((w.localResidency[msg.text]?).map (·.2) |>.getD 0)
      (ascii "activated")))
  else if msg.type = .wkDeactivate then
    (w, some (reply msg .wkDeactivateAck true 0 (ascii "deactivated")))
  else if msg.type = .wkMigrate then
    (w, some (reply msg .wkMigrateAck true 0 (ascii "migrated")))
  else if msg.type = .wkInvalidate then
    ({ w with localResidency := w.localResidency.erase msg.text },
      some (reply msg .wkInvalidateAck true 0 (ascii "invalidated")))
  else if msg.type = .wkShutdown then ({ w with stop := true }, none)
  else (w, none)

theorem handleCommand_reply {w : WorkerService} {msg m : Message}
    (h : (w.handleCommand msg).2 = some m) : m.reqId = msg.reqId ∧ m.ok = true := by
  unfold handleCommand at h
  split_ifs at h <;> (cases h; exact ⟨rfl, rfl⟩)

theorem handleCommand_keeps {w : WorkerService} {msg : Message}
    (h : msg.type = .wkActivate ∨ msg.type = .wkDeactivate) : (w.handleCommand msg).1 = w := by
  unfold handleCommand
  rcases h with h | h <;>
    rw [h] <;> rfl

end WorkerService

end AdapterFabric
