import AdapterFabric.Fabric.Step

/-!
# AdapterFabric.Coordinator.Section

The critical sections of the coordinator: everything it does while it holds `state_mc_`
(`coordinator.cpp`).

* `run_refines`: what a section does to the Fabric is a run of Fabric operations, each bind keyed by
  the adapter of its fence.
* `wkRegister_refines`: so is the section of a worker registration.
-/

namespace AdapterFabric

namespace Coordinator

open Fabric (Op)

/-- What the coordinator's threads share: the Fabric behind `state_mc_`, the generator behind
`Rng::instance()`, and the atomics. -/
structure Shared where
  fabric : Fabric
  rng : Rng
  nextReq : UInt64 := 1
  shutdown : Bool := false

/-- The sections of `process_control`, in its order, each with what it captures. -/
inductive Section where
  | registerAdapter (d : AdapterDescriptor)
  | validate (text : Bytes) (t : CompatibilityTarget)
  | precheck (fence : AuthorityFence)
  | createInstance (fence : AuthorityFence)
  | markReady (inst : AdapterInstanceId) (bytes : UInt64)
  | setReady (id : AdapterId)
  | bind (fence : AuthorityFence)
  | invalidate (id : AdapterId) (reason : Bytes)
  | evict (inst : AdapterInstanceId)
  | pin (text : Bytes)
  | unpin (text : Bytes)
  | snapshot
  | list
  | compose (ids : List AdapterId) (policy : Bytes)
  | epoch
  | capacity

namespace Section

/-- What leaves the section. -/
abbrev Res : Section → Type
  | registerAdapter _ => Except Error AdapterDescriptor
  | validate _ _ => Except Error CompatibilityReport
  | precheck _ => AuthorityCheck
  | createInstance _ => Except Error AdapterInstanceId
  | markReady _ _ => Unit
  | setReady _ => Unit
  | bind _ => Except Error AuthorityCheck
  | invalidate _ _ => InvalidationRecord
  | evict _ => Bool × Bytes
  | pin _ => Except Error Unit
  | unpin _ => Except Error Unit
  | snapshot => Bytes
  | list => Bytes
  | compose _ _ => Except Error Composition
  | epoch => UInt64
  | capacity => Bytes

/-- The line of `ctl_list` for one adapter. -/
def listLine (a : AdapterDescriptor) : Bytes :=
  a.id.str ++ ascii " gen=" ++ decimal a.generation.value.toNat ++ ascii " " ++ a.name ++
    ascii "\n"

/-- The text of `ctl_capacity`. -/
def capacityText (c : CapacityAccountant) : Bytes :=
  let used (loc : ResidencyLocation) : Bytes := decimal (c.usedAt loc).toNat
  ascii "device_memory=" ++ used .deviceMemory ++ ascii " pinned_host=" ++ used .pinnedHost ++
    ascii " pageable_host=" ++ used .pageableHost ++ ascii " process_local=" ++
    used .processLocal ++ ascii " node_local=" ++ used .nodeLocal ++
    ascii " persistent_storage=" ++ used .persistentStorage

def run : (sec : Section) → Shared → sec.Res × Shared
  | registerAdapter d, s =>
    let (r, fabric) := s.fabric.registerAdapter d
    (r, { s with fabric })
  | validate text t, s => (do s.fabric.validate (← mustParse text) t, s)
  | precheck fence, s => (s.fabric.checkFence fence, s)
  | createInstance fence, s =>
    let bytes := ((s.fabric.adapter fence.adapter).map (·.memoryBytes)).getD 0
    let (r, fabric, rng) := s.fabric.createInstance fence.adapter fence.worker fence.boot
      fence.device bytes s.rng
    (r, { s with fabric, rng })
  | markReady inst bytes, s =>
    -- a failing reservation is swallowed
    let (_, fabric) := (s.fabric.markReady inst bytes).reserveCapacity .deviceMemory bytes inst.str
    ((), { s with fabric })
  | setReady id, s => ((), { s with fabric := s.fabric.setLifecycle id .ready })
  | bind fence, s =>
    let (r, fabric) := s.fabric.bindAuthority fence.adapter fence
    (r, { s with fabric })
  | invalidate id reason, s =>
    let (r, fabric) := s.fabric.invalidate id .manual reason
    (r, { s with fabric })
  | evict inst, s =>
    let bytes := ((s.fabric.residency inst).map (·.bytes)).getD 0
    let (r, fabric) := s.fabric.evict inst
    -- a failing release is swallowed
    let fabric := if r.1 then (fabric.releaseCapacity .deviceMemory bytes inst.str).2 else fabric
    (r, { s with fabric })
  | pin text, s =>
    match mustParse text with
    | .error e => (.error e, s)
    | .ok inst =>
      let (r, fabric) := s.fabric.pin inst
      (r, { s with fabric })
  | unpin text, s =>
    match mustParse text with
    | .error e => (.error e, s)
    | .ok inst =>
      let (r, fabric) := s.fabric.unpin inst
      (r, { s with fabric })
  | snapshot, s => (serializeSnapshot s.fabric.snapshot, s)
  | list, s => (s.fabric.adapters.values.flatMap listLine, s)
  | compose ids policy, s =>
    let (r, fabric, rng) := s.fabric.publishComposition ids policy s.rng
    (r, { s with fabric, rng })
  | epoch, s =>
    let fabric := s.fabric.advanceEpoch
    (fabric.epoch.value, { s with fabric })
  | capacity, s => (capacityText s.fabric.capacity, s)

/-- The Fabric operations a section performs. -/
def ops : Section → Shared → List Op
  | registerAdapter d, _ => [.registerAdapter d]
  | createInstance fence, s =>
    [.createInstance fence.adapter fence.worker fence.boot fence.device
      (((s.fabric.adapter fence.adapter).map (·.memoryBytes)).getD 0) s.rng]
  | markReady inst bytes, _ =>
    [.markReady inst bytes, .reserveCapacity .deviceMemory bytes inst.str]
  | setReady id, _ => [.setLifecycle id .ready]
  | bind fence, _ => [.bindAuthority fence.adapter fence]
  | invalidate id reason, _ => [.invalidate id .manual reason]
  | evict inst, s =>
    .evict inst :: if (s.fabric.evict inst).1.1 then
      [.releaseCapacity .deviceMemory (((s.fabric.residency inst).map (·.bytes)).getD 0) inst.str]
    else []
  | pin text, _ =>
    match mustParse text with
    | .error _ => []
    | .ok inst => [.pin inst]
  | unpin text, _ =>
    match mustParse text with
    | .error _ => []
    | .ok inst => [.unpin inst]
  | compose ids policy, s => [.publishComposition ids policy s.rng]
  | epoch, _ => [.advanceEpoch]
  | _, _ => []

theorem run_refines (sec : Section) (s : Shared) :
    (sec.run s).2.fabric = Fabric.run (sec.ops s) s.fabric := by
  cases sec with
  | evict inst =>
    simp only [run, ops]
    split <;> rfl
  | pin text =>
    simp only [run, ops]
    split <;> rfl
  | unpin text =>
    simp only [run, ops]
    split <;> rfl
  | _ => rfl

/-- The operations of control requests: binds are keyed, workers stay as they are registered, and
nothing is recovered. -/
def IsControl : Op → Prop
  | .bindAuthority id fence => id = fence.adapter
  | .registerWorker _ => False
  | .onWorkerDown _ => False
  | .onWorkerRestart _ _ => False
  | .recover _ => False
  | _ => True

theorem IsControl.keyed {op : Op} (h : IsControl op) : op.Keyed ∧ op.isRecover = false := by
  cases op with
  | bindAuthority id fence => exact ⟨h, rfl⟩
  | recover s => cases h
  | _ => exact ⟨trivial, rfl⟩

theorem ops_isControl (sec : Section) (s : Shared) : ∀ op ∈ sec.ops s, IsControl op := by
  cases sec with
  | evict inst =>
    simp only [ops]
    split <;> simp [IsControl]
  | pin text =>
    simp only [ops]
    split <;> simp [IsControl]
  | unpin text =>
    simp only [ops]
    split <;> simp [IsControl]
  | _ => simp [ops, IsControl]

end Section

/-! ## Worker events -/

/-- The node of a registration, which may be left out. -/
def parseNode (text : Bytes) : Except Error NodeId :=
  if text.isEmpty then .ok .nil else mustParse text

/-- What `wk_register` makes of its message: an id, a boot and a node, each of which may fail to
parse. -/
def parseRegistration (epoch : CoordinatorEpoch) (msg : Message) : Except Error WorkerRecord := do
  let id ← mustParse msg.text
  let boot ← mustParse msg.text2
  let node ← parseNode msg.text4
  pure { id, boot, address := msg.text3, connected := true, epoch, node }

/-- The section of `wk_register`: `register_worker` and then `on_worker_restart`. A message that
does not parse leaves the Fabric alone. -/
def wkRegister (f : Fabric) (msg : Message) : Fabric :=
  match parseRegistration f.epoch msg with
  | .error _ => f
  | .ok rec => (f.registerWorker rec).onWorkerRestart rec.id rec.boot

theorem parseRegistration_ok {epoch : CoordinatorEpoch} {msg : Message} {rec : WorkerRecord}
    (h : parseRegistration epoch msg = .ok rec) :
    mustParse msg.text = .ok rec.id ∧ mustParse msg.text2 = .ok rec.boot ∧
      rec.connected = true := by
  obtain ⟨id, hid, h⟩ := bind_eq_ok.mp h
  obtain ⟨boot, hboot, h⟩ := bind_eq_ok.mp h
  obtain ⟨node, _, h⟩ := bind_eq_ok.mp h
  cases h
  exact ⟨hid, hboot, rfl⟩

/-- A registration does nothing, or registers a connected worker with the boot it names. -/
theorem wkRegister_cases (f : Fabric) (msg : Message) :
    wkRegister f msg = f ∨
    ∃ rec : WorkerRecord, mustParse msg.text = .ok rec.id ∧ mustParse msg.text2 = .ok rec.boot ∧
      rec.connected = true ∧
      wkRegister f msg = (f.registerWorker rec).onWorkerRestart rec.id rec.boot := by
  unfold wkRegister
  cases hrec : parseRegistration f.epoch msg with
  | error e => exact .inl rfl
  | ok rec =>
    obtain ⟨hid, hboot, hconnected⟩ := parseRegistration_ok hrec
    exact .inr ⟨rec, hid, hboot, hconnected, rfl⟩

theorem wkRegister_refines (f : Fabric) (msg : Message) :
    ∃ ops, (∀ op ∈ ops, op.Keyed ∧ op.isRecover = false) ∧ wkRegister f msg = Fabric.run ops f := by
  rcases wkRegister_cases f msg with he | ⟨rec, _, _, _, he⟩
  · exact ⟨[], by simp, he⟩
  · refine ⟨[.registerWorker rec, .onWorkerRestart rec.id rec.boot], ?_, he⟩
    simp [Op.Keyed, Op.isRecover]

end Coordinator

end AdapterFabric
