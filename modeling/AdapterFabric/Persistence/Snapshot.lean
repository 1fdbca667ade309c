import AdapterFabric.Composition
import AdapterFabric.Persistence.Binary

/-!
# AdapterFabric.Persistence.Snapshot

The adapter and snapshot codecs (`write_desc`, `read_desc`, `serialize_adapter`,
`deserialize_adapter`, `serialize_snapshot` and `deserialize_snapshot` of `persistence.cpp`).

`snapshot_codec`: on well-formed snapshots decoding inverts encoding, and everything the decoder
returns is well formed.
-/

namespace AdapterFabric

open Cursor

/-! ## Writers -/

def writeTarget (t : TargetModule) : Bytes :=
  writeString t.name ++ writeU32 t.inFeatures ++ writeU32 t.outFeatures ++
    writeList writeU32 t.shape

def writeDependency (x : Dependency) : Bytes :=
  writeString x.name ++ writeString x.version ++ writeString x.requirement

def writeCapability (x : RuntimeCapability) : Bytes :=
  writeString x.name ++ writeString x.value ++ writeBool x.required

def writeConstraint (x : ExecutionConstraint) : Bytes := writeString x.key ++ writeString x.value

def writeProvenance (p : Provenance) : Bytes :=
  writeString p.source ++ writeString p.author ++ writeString p.timestamp ++
    writeString p.originDigest ++ writeString p.notes

def writeDesc (d : AdapterDescriptor) : Bytes :=
  writeId d.id ++ writeId d.revision ++ writeId d.artifact ++ writeString d.artifactDigest ++
    writeU8 d.kind.byte ++ writeString d.name ++ writeId d.baseModel ++
    writeId d.baseModelRevision ++ writeList writeTarget d.targets ++ writeU32 d.rank ++
    writeU8 d.dtype.byte ++ writeU64 d.paramCount ++ writeU64 d.paramBytes ++
    writeU64 d.memoryBytes ++ writeString d.format ++ writeU32 d.formatVersion ++
    writeList writeDependency d.dependencies ++ writeList writeCapability d.capabilities ++
    writeList writeConstraint d.constraints ++ writeProvenance d.provenance ++
    writeGen d.generation ++ writeGen d.policyGeneration ++ writeU8 d.validation.byte

def writeMember (m : CompositionMember) : Bytes :=
  writeId m.adapterId ++ writeId m.revision ++ writeGen m.generation ++ writeU64 m.memoryBytes ++
    writeU8 m.kind.byte

def writeComposition (c : Composition) : Bytes :=
  writeId c.id ++ writeList writeMember c.members ++ writeGen c.generation ++
    writeId c.baseModel ++ writeId c.baseModelRevision ++ writeString c.policy ++
    writeU64 c.totalMemoryBytes ++ writeString c.digest ++ writeString c.validationSummary ++
    writeBool c.isValid

def writeWorkerCapability (x : WorkerCapability) : Bytes :=
  writeString x.name ++ writeString x.value

def writeWorker (w : WorkerRecord) : Bytes :=
  writeId w.id ++ writeId w.boot ++ writeString w.address ++ writeId w.node ++ writeId w.device ++
    writeBool w.connected ++ writeGen w.epoch ++ writeList writeWorkerCapability w.capabilities ++
    writeU64 w.deviceMemoryBytes ++ writeList writeId w.localAdapters

/-- The durable canonical state that must survive a restart. -/
structure FabricSnapshot where
  epoch : CoordinatorEpoch := .none
  nextAdapterGeneration : AdapterGeneration := .none
  nextCompositionGeneration : CompositionGeneration := .none
  adapters : List AdapterDescriptor := []
  compositions : List Composition := []
  workers : List WorkerRecord := []
deriving DecidableEq

def FabricSnapshot.kFormat : UInt32 := 1

def writeSnapshot (s : FabricSnapshot) : Bytes :=
  writeU32 FabricSnapshot.kFormat ++ writeGen s.epoch ++ writeGen s.nextAdapterGeneration ++
    writeGen s.nextCompositionGeneration ++ writeList writeDesc s.adapters ++
    writeList writeComposition s.compositions ++ writeList writeWorker s.workers

def serializeAdapter (d : AdapterDescriptor) : Bytes := finish (writeDesc d)

def serializeSnapshot (s : FabricSnapshot) : Bytes := finish (writeSnapshot s)

/-! ## Readers -/

def isKindOk (k : AdapterKind) : Bool :=
  k = .generic || k = .lora || k = .fullFinetune || k = .prefixTuning || k = .custom

def isDtypeOk (t : DType) : Bool :=
  t = .unknown || t = .f32 || t = .f16 || t = .bf16 || t = .f8E4m3 || t = .f8E5m2 || t = .int8 ||
    t = .int4

def isValidationOk (v : ValidationState) : Bool :=
  v = .none || v = .validating || v = .valid || v = .invalid

namespace BinReader

def target : Read TargetModule := do
  let name ← string
  let inFeatures ← u32
  let outFeatures ← u32
  let shape ← list 64 "shape too large" u32
  pure { name, inFeatures, outFeatures, shape }

def dependency : Read Dependency := do
  let name ← string
  let version ← string
  let requirement ← string
  pure { name, version, requirement }

def capability : Read RuntimeCapability := do
  let name ← string
  let value ← string
  let required ← bool
  pure { name, value, required }

def constraint : Read ExecutionConstraint := do
  let key ← string
  let value ← string
  pure { key, value }

def provenance : Read Provenance := do
  let source ← string
  let author ← string
  let timestamp ← string
  let originDigest ← string
  let notes ← string
  pure { source, author, timestamp, originDigest, notes }

/-- An enumerator, which must be a declared one. -/
def enum {ε : Type} (mk : UInt8 → ε) (isOk : ε → Bool) (what : String) : Read ε := do
  let b ← u8
  throwIf (¬ isOk (mk b)) ⟨.invalidEnum, ascii what⟩
  pure (mk b)

/-- A generation, which must not be none. -/
def someGen {tag : GenTag} (what : String) : Read (Generation tag) := do
  let g ← gen
  throwIf (g.isNone) ⟨.invalidGenerationValue, ascii what⟩
  pure g

def desc : Read AdapterDescriptor := do
  let id ← id
  let revision ← BinReader.id
  let artifact ← BinReader.id
  let artifactDigest ← string
  let kind ← enum AdapterKind.mk isKindOk "invalid adapter kind"
  let name ← string
  let baseModel ← BinReader.id
  let baseModelRevision ← BinReader.id
  let targets ← list 100000 "target count too large" target
  let rank ← u32
  let dtype ← enum DType.mk isDtypeOk "invalid dtype"
  let paramCount ← u64
  let paramBytes ← u64
  let memoryBytes ← u64
  let format ← string
  let formatVersion ← u32
  throwIf (formatVersion = 0) ⟨.invalidEnum, ascii "format version zero"⟩
  let dependencies ← list 100000 "dependency count too large" dependency
  let capabilities ← list 100000 "capability count too large" capability
  let constraints ← list 100000 "constraint count too large" constraint
  let provenance ← provenance
  -- the policy generation is read before the adapter generation is checked
  let generation ← gen
  let policyGeneration ← gen
  throwIf generation.isNone ⟨.invalidGenerationValue, ascii "adapter generation is none"⟩
  let validation ← enum ValidationState.mk isValidationOk "invalid validation state"
  pure {
    id, revision, artifact, artifactDigest, kind, name, baseModel, baseModelRevision, targets,
    rank, dtype, paramCount, paramBytes, memoryBytes, format, formatVersion, dependencies,
    capabilities, constraints, provenance, generation, policyGeneration, validation }

def member : Read CompositionMember := do
  let adapterId ← id
  let revision ← id
  let generation ← someGen "member generation none"
  let memoryBytes ← u64
  let kind ← u8
  pure { adapterId, revision, generation, memoryBytes, kind := ⟨kind⟩ }

/-- The loop variable `total` after the members. -/
def memberTotal (members : List CompositionMember) : UInt64 :=
  members.foldl (fun total m => total + m.memoryBytes) 0

def composition : Read Composition := do
  let id ← id
  let members ← list 100000 "member count too large" member
  throwIf members.isEmpty ⟨.invalidComposition, ascii "empty composition"⟩
  let generation ← someGen "composition generation none"
  let baseModel ← BinReader.id
  let baseModelRevision ← BinReader.id
  let policy ← string
  let totalMemoryBytes ← u64
  let digest ← string
  let validationSummary ← string
  let isValid ← bool
  throwIf (totalMemoryBytes ≠ memberTotal members)
    ⟨.invalidComposition, ascii "composition memory accounting mismatch"⟩
  throwIf (CompositionBuilder.computeDigest members policy ≠ digest)
    ⟨.invalidComposition, ascii "composition digest mismatch"⟩
  pure {
    id, members, generation, baseModel, baseModelRevision, policy, totalMemoryBytes, digest,
    validationSummary, isValid }

def workerCapability : Read WorkerCapability := do
  let name ← string
  let value ← string
  pure { name, value }

def worker : Read WorkerRecord := do
  let id ← id
  let boot ← BinReader.id
  let address ← string
  let node ← BinReader.id
  let device ← BinReader.id
  let connected ← bool
  let epoch ← gen
  let capabilities ← list 100000 "capability count too large" workerCapability
  let deviceMemoryBytes ← u64
  let localAdapters ← list 100000 "local adapter count too large" BinReader.id
  pure {
    id, boot, address, node, device, connected, epoch, capabilities, deviceMemoryBytes,
    localAdapters }

def snapshot : Read FabricSnapshot := do
  let fmt ← u32
  throwIf (fmt ≠ FabricSnapshot.kFormat)
    ⟨.unsupportedVersion, ascii "unsupported snapshot version"⟩
  let epoch ← gen
  let nextAdapterGeneration ← gen
  let nextCompositionGeneration ← gen
  let adapters ←
    listFresh 100000 "adapter count too large" (·.id.str) "duplicate adapter id" desc
  let compositions ←
    listFresh 100000 "composition count too large" (·.id.str) "duplicate composition id" composition
  let workers ←
    listFresh 100000 "worker count too large" (·.id.str) "duplicate worker id" worker
  pure {
    epoch, nextAdapterGeneration, nextCompositionGeneration, adapters, compositions, workers }

end BinReader

def deserializeAdapter (bytes : Bytes) : Except Error AdapterDescriptor :=
  decode BinReader.desc bytes

def deserializeSnapshot (bytes : Bytes) : Except Error FabricSnapshot :=
  decode BinReader.snapshot bytes

/-! ## Well-formed values -/

/-- The length prefix of a string has 32 bits. -/
def Short (s : Bytes) : Prop := s.length < 2 ^ 32

instance (s : Bytes) : Decidable (Short s) := inferInstanceAs (Decidable (s.length < 2 ^ 32))

/-- At most `limit` elements, all of which satisfy `p`. -/
structure Bounded {α : Type} (limit : Nat) (p : α → Prop) (as : List α) : Prop where
  count : as.length ≤ limit
  each : ∀ a ∈ as, p a

structure TargetModule.WellFormed (t : TargetModule) : Prop where
  name : Short t.name
  shape : t.shape.length ≤ 64

structure Dependency.WellFormed (x : Dependency) : Prop where
  name : Short x.name
  version : Short x.version
  requirement : Short x.requirement

structure RuntimeCapability.WellFormed (x : RuntimeCapability) : Prop where
  name : Short x.name
  value : Short x.value

structure ExecutionConstraint.WellFormed (x : ExecutionConstraint) : Prop where
  key : Short x.key
  value : Short x.value

structure Provenance.WellFormed (p : Provenance) : Prop where
  source : Short p.source
  author : Short p.author
  timestamp : Short p.timestamp
  originDigest : Short p.originDigest
  notes : Short p.notes

structure AdapterDescriptor.WellFormed (d : AdapterDescriptor) : Prop where
  artifactDigest : Short d.artifactDigest
  kind : isKindOk d.kind = true
  name : Short d.name
  targets : Bounded 100000 TargetModule.WellFormed d.targets
  dtype : isDtypeOk d.dtype = true
  format : Short d.format
  formatVersion : d.formatVersion ≠ 0
  dependencies : Bounded 100000 Dependency.WellFormed d.dependencies
  capabilities : Bounded 100000 RuntimeCapability.WellFormed d.capabilities
  constraints : Bounded 100000 ExecutionConstraint.WellFormed d.constraints
  provenance : d.provenance.WellFormed
  generation : d.generation ≠ .none
  validation : isValidationOk d.validation = true

structure Composition.WellFormed (c : Composition) : Prop where
  members : Bounded 100000 (fun m => m.generation ≠ .none) c.members
  nonempty : c.members ≠ []
  generation : c.generation ≠ .none
  policy : Short c.policy
  digest : Short c.digest
  validationSummary : Short c.validationSummary
  total : c.totalMemoryBytes.toNat = (c.members.map (·.memoryBytes.toNat)).sum % 2 ^ 64
  digest_eq : c.digest = CompositionBuilder.computeDigest c.members c.policy

structure WorkerCapability.WellFormed (x : WorkerCapability) : Prop where
  name : Short x.name
  value : Short x.value

structure WorkerRecord.WellFormed (w : WorkerRecord) : Prop where
  address : Short w.address
  capabilities : Bounded 100000 WorkerCapability.WellFormed w.capabilities
  localAdapters : w.localAdapters.length ≤ 100000

structure FabricSnapshot.WellFormed (s : FabricSnapshot) : Prop where
  adapters : Bounded 100000 AdapterDescriptor.WellFormed s.adapters
  compositions : Bounded 100000 Composition.WellFormed s.compositions
  workers : Bounded 100000 WorkerRecord.WellFormed s.workers
  adapters_nodup : (s.adapters.map (·.id)).Nodup
  compositions_nodup : (s.compositions.map (·.id)).Nodup
  workers_nodup : (s.workers.map (·.id)).Nodup

theorem Generation.isNone_iff {tag : GenTag} {g : Generation tag} : g.isNone ↔ g = .none := by
  cases g
  simp [Generation.isNone, Generation.none]

theorem nodup_str_iff {α : Type} {tag : IdTag} {key : α → Id tag} {as : List α} :
    (as.map fun a => (key a).str).Nodup ↔ (as.map key).Nodup := by
  have hcomp : (as.map fun a => (key a).str) = (as.map key).map Id.str := by simp
  rw [hcomp]
  exact List.nodup_map_iff fun _ _ h => Id.str_inj h

theorem memberTotal_toNat (members : List CompositionMember) :
    (BinReader.memberTotal members).toNat =
      (members.map (·.memoryBytes.toNat)).sum % 2 ^ 64 := by
  have key : ∀ (ms : List CompositionMember) (t : UInt64),
      (ms.foldl (fun total m => total + m.memoryBytes) t).toNat =
        (t.toNat + (ms.map (·.memoryBytes.toNat)).sum) % 2 ^ 64 := by
    intro ms
    induction ms with
    | nil =>
      intro t
      simp
    | cons m ms ih =>
      intro t
      rw [List.foldl_cons, ih, UInt64.toNat_add, List.map_cons, List.sum_cons]
      omega
  have := key members 0
  simpa [BinReader.memberTotal] using this

/-! ## Decoding inverts encoding -/

theorem reads_target {t : TargetModule} (h : t.WellFormed) :
    Reads BinReader.target (writeTarget t) t := by
  unfold writeTarget
  simp only [List.append_assoc]
  refine (reads_string h.name).bind ((reads_u32 _).bind ((reads_u32 _).bind ?_))
  exact (reads_list "shape too large" h.shape (by omega) fun x _ => reads_u32 x).map (.pure _)

theorem reads_dependency {x : Dependency} (h : x.WellFormed) :
    Reads BinReader.dependency (writeDependency x) x := by
  unfold writeDependency
  simp only [List.append_assoc]
  refine (reads_string h.name).bind ((reads_string h.version).bind ?_)
  exact (reads_string h.requirement).map (.pure _)

theorem reads_capability {x : RuntimeCapability} (h : x.WellFormed) :
    Reads BinReader.capability (writeCapability x) x := by
  unfold writeCapability
  simp only [List.append_assoc]
  refine (reads_string h.name).bind ((reads_string h.value).bind ?_)
  exact (reads_bool _).map (.pure _)

theorem reads_constraint {x : ExecutionConstraint} (h : x.WellFormed) :
    Reads BinReader.constraint (writeConstraint x) x :=
  (reads_string h.key).bind ((reads_string h.value).map (.pure _))

theorem reads_provenance {p : Provenance} (h : p.WellFormed) :
    Reads BinReader.provenance (writeProvenance p) p := by
  unfold writeProvenance
  simp only [List.append_assoc]
  refine (reads_string h.source).bind ((reads_string h.author).bind ?_)
  refine (reads_string h.timestamp).bind ((reads_string h.originDigest).bind ?_)
  exact (reads_string h.notes).map (.pure _)

theorem reads_enum {ε : Type} {mk : UInt8 → ε} {b : UInt8} {isOk : ε → Bool} {what : String}
    (h : isOk (mk b) = true) : Reads (BinReader.enum mk isOk what) (writeU8 b) (mk b) := by
  refine (reads_u8 b).map ?_
  exact (Reads.throwIf (not_not.mpr h)).bind_nil (.pure _)

theorem reads_someGen {tag : GenTag} {what : String} {g : Generation tag} (h : g ≠ .none) :
    Reads (BinReader.someGen what) (writeGen g) g := by
  refine (reads_gen g).map ?_
  exact (Reads.throwIf fun hn => h (Generation.isNone_iff.mp hn)).bind_nil (.pure _)

theorem reads_desc {d : AdapterDescriptor} (h : d.WellFormed) :
    Reads BinReader.desc (writeDesc d) d := by
  have targets := reads_list "target count too large" h.targets.count (by omega)
    fun t ht => reads_target (h.targets.each t ht)
  have dependencies := reads_list "dependency count too large" h.dependencies.count
    (by omega) fun x hx => reads_dependency (h.dependencies.each x hx)
  have capabilities := reads_list "capability count too large" h.capabilities.count
    (by omega) fun x hx => reads_capability (h.capabilities.each x hx)
  have constraints := reads_list "constraint count too large" h.constraints.count
    (by omega) fun x hx => reads_constraint (h.constraints.each x hx)
  have kind : Reads (BinReader.enum AdapterKind.mk isKindOk "invalid adapter kind")
      (writeU8 d.kind.byte) d.kind := reads_enum h.kind
  have dtype : Reads (BinReader.enum DType.mk isDtypeOk "invalid dtype")
      (writeU8 d.dtype.byte) d.dtype := reads_enum h.dtype
  have validation : Reads
      (BinReader.enum ValidationState.mk isValidationOk "invalid validation state")
      (writeU8 d.validation.byte) d.validation := reads_enum h.validation
  unfold writeDesc
  simp only [List.append_assoc]
  refine (reads_id _).bind ((reads_id _).bind ((reads_id _).bind ?_))
  refine (reads_string h.artifactDigest).bind (kind.bind ?_)
  refine (reads_string h.name).bind ((reads_id _).bind ((reads_id _).bind ?_))
  refine targets.bind ((reads_u32 _).bind (dtype.bind ?_))
  refine (reads_u64 _).bind ((reads_u64 _).bind ((reads_u64 _).bind ?_))
  refine (reads_string h.format).bind ((reads_u32 _).bind ?_)
  refine (Reads.throwIf h.formatVersion).bind_nil ?_
  refine dependencies.bind (capabilities.bind (constraints.bind ?_))
  refine (reads_provenance h.provenance).bind ((reads_gen _).bind ((reads_gen _).bind ?_))
  refine (Reads.throwIf fun hn => h.generation (Generation.isNone_iff.mp hn)).bind_nil ?_
  exact validation.map (.pure _)

theorem reads_member {m : CompositionMember} (h : m.generation ≠ .none) :
    Reads BinReader.member (writeMember m) m := by
  unfold writeMember
  simp only [List.append_assoc]
  refine (reads_id _).bind ((reads_id _).bind ((reads_someGen h).bind ?_))
  exact (reads_u64 _).bind ((reads_u8 _).map (.pure _))

theorem reads_composition {c : Composition} (h : c.WellFormed) :
    Reads BinReader.composition (writeComposition c) c := by
  have members := reads_list "member count too large" h.members.count (by omega)
    fun m hm => reads_member (h.members.each m hm)
  have total : c.totalMemoryBytes = BinReader.memberTotal c.members := by
    apply UInt64.toNat_inj.mp
    rw [h.total, memberTotal_toNat]
  unfold writeComposition
  simp only [List.append_assoc]
  refine (reads_id _).bind (members.bind ?_)
  refine (Reads.throwIf (by simpa using h.nonempty)).bind_nil ?_
  refine (reads_someGen h.generation).bind ((reads_id _).bind ((reads_id _).bind ?_))
  refine (reads_string h.policy).bind ((reads_u64 _).bind ?_)
  refine (reads_string h.digest).bind ((reads_string h.validationSummary).bind ?_)
  refine (reads_bool _).map ((Reads.throwIf (not_not.mpr total)).bind_nil ?_)
  exact (Reads.throwIf (not_not.mpr h.digest_eq.symm)).bind_nil (.pure _)

theorem reads_workerCapability {x : WorkerCapability} (h : x.WellFormed) :
    Reads BinReader.workerCapability (writeWorkerCapability x) x :=
  (reads_string h.name).bind ((reads_string h.value).map (.pure _))

theorem reads_worker {w : WorkerRecord} (h : w.WellFormed) :
    Reads BinReader.worker (writeWorker w) w := by
  have capabilities := reads_list "capability count too large" h.capabilities.count
    (by omega) fun x hx => reads_workerCapability (h.capabilities.each x hx)
  have localAdapters := reads_list "local adapter count too large" h.localAdapters
    (by omega) fun i _ => reads_id i
  unfold writeWorker
  simp only [List.append_assoc]
  refine (reads_id _).bind ((reads_id _).bind ((reads_string h.address).bind ?_))
  refine (reads_id _).bind ((reads_id _).bind ((reads_bool _).bind ((reads_gen _).bind ?_)))
  exact capabilities.bind ((reads_u64 _).bind (localAdapters.map (.pure _)))

theorem reads_snapshot {s : FabricSnapshot} (h : s.WellFormed) :
    Reads BinReader.snapshot (writeSnapshot s) s := by
  have adapters := reads_listFresh "adapter count too large"
    "duplicate adapter id" h.adapters.count (by omega)
    (fun d hd => reads_desc (h.adapters.each d hd)) (nodup_str_iff.mpr h.adapters_nodup)
  have compositions := reads_listFresh "composition count too large"
    "duplicate composition id" h.compositions.count (by omega)
    (fun c hc => reads_composition (h.compositions.each c hc))
    (nodup_str_iff.mpr h.compositions_nodup)
  have workers := reads_listFresh "worker count too large"
    "duplicate worker id" h.workers.count (by omega)
    (fun w hw => reads_worker (h.workers.each w hw)) (nodup_str_iff.mpr h.workers_nodup)
  unfold writeSnapshot
  simp only [List.append_assoc]
  refine (reads_u32 _).bind ((Reads.throwIf (not_not.mpr rfl)).bind_nil ?_)
  refine (reads_gen _).bind ((reads_gen _).bind ((reads_gen _).bind ?_))
  exact adapters.bind (compositions.bind (workers.map (.pure _)))

/-! ## What is decoded is well formed -/

theorem accepts_target : Accepts BinReader.target TargetModule.WellFormed := by
  refine accepts_string.bind fun _ name => accepts_u32.bind fun _ _ => ?_
  refine accepts_u32.bind fun _ _ => (accepts_list accepts_u32).bind fun _ shape => ?_
  exact .pure ⟨name, shape.1⟩

theorem accepts_dependency : Accepts BinReader.dependency Dependency.WellFormed := by
  refine accepts_string.bind fun _ name => accepts_string.bind fun _ version => ?_
  exact accepts_string.bind fun _ requirement => .pure ⟨name, version, requirement⟩

theorem accepts_capability : Accepts BinReader.capability RuntimeCapability.WellFormed := by
  refine accepts_string.bind fun _ name => accepts_string.bind fun _ value => ?_
  exact accepts_bool.bind fun _ _ => .pure ⟨name, value⟩

theorem accepts_constraint : Accepts BinReader.constraint ExecutionConstraint.WellFormed :=
  accepts_string.bind fun _ key => accepts_string.bind fun _ value => .pure ⟨key, value⟩

theorem accepts_provenance : Accepts BinReader.provenance Provenance.WellFormed := by
  refine accepts_string.bind fun _ source => accepts_string.bind fun _ author => ?_
  refine accepts_string.bind fun _ timestamp => accepts_string.bind fun _ originDigest => ?_
  exact accepts_string.bind fun _ notes => .pure ⟨source, author, timestamp, originDigest, notes⟩

theorem accepts_enum {ε : Type} {mk : UInt8 → ε} {isOk : ε → Bool} {what : String} :
    Accepts (BinReader.enum mk isOk what) fun e => isOk e = true :=
  accepts_u8.bind fun _ _ => Accepts.throwIf.bind fun _ h => .pure (not_not.mp h)

theorem accepts_someGen {tag : GenTag} {what : String} :
    Accepts (BinReader.someGen what : BinReader.Read (Generation tag)) fun g => g ≠ .none :=
  accepts_gen.bind fun _ _ => Accepts.throwIf.bind fun _ h =>
    .pure fun hn => h (Generation.isNone_iff.mpr hn)

theorem accepts_desc : Accepts BinReader.desc AdapterDescriptor.WellFormed := by
  refine accepts_id.bind fun _ _ => accepts_id.bind fun _ _ => accepts_id.bind fun _ _ => ?_
  refine accepts_string.bind fun _ artifactDigest => accepts_enum.bind fun _ kind => ?_
  refine accepts_string.bind fun _ name => accepts_id.bind fun _ _ => accepts_id.bind fun _ _ => ?_
  refine (accepts_list accepts_target).bind fun _ targets => accepts_u32.bind fun _ _ => ?_
  refine accepts_enum.bind fun _ dtype => accepts_u64.bind fun _ _ => ?_
  refine accepts_u64.bind fun _ _ => accepts_u64.bind fun _ _ => ?_
  refine accepts_string.bind fun _ format => accepts_u32.bind fun _ _ => ?_
  refine Accepts.throwIf.bind fun _ formatVersion => ?_
  refine (accepts_list accepts_dependency).bind fun _ dependencies => ?_
  refine (accepts_list accepts_capability).bind fun _ capabilities => ?_
  refine (accepts_list accepts_constraint).bind fun _ constraints => ?_
  refine accepts_provenance.bind fun _ provenance => ?_
  refine accepts_gen.bind fun _ _ => accepts_gen.bind fun _ _ => ?_
  refine Accepts.throwIf.bind fun _ generation => accepts_enum.bind fun _ validation => .pure ?_
  exact {
    artifactDigest, kind, name, dtype, format, formatVersion, provenance, validation
    targets := ⟨targets.1, targets.2⟩
    dependencies := ⟨dependencies.1, dependencies.2⟩
    capabilities := ⟨capabilities.1, capabilities.2⟩
    constraints := ⟨constraints.1, constraints.2⟩
    generation := fun hn => generation (Generation.isNone_iff.mpr hn) }

theorem accepts_member : Accepts BinReader.member fun m => m.generation ≠ .none := by
  refine accepts_id.bind fun _ _ => accepts_id.bind fun _ _ => ?_
  refine accepts_someGen.bind fun _ generation => accepts_u64.bind fun _ _ => ?_
  exact accepts_u8.bind fun _ _ => .pure generation

theorem accepts_composition : Accepts BinReader.composition Composition.WellFormed := by
  refine accepts_id.bind fun _ _ => (accepts_list accepts_member).bind fun _ members => ?_
  refine Accepts.throwIf.bind fun _ nonempty => accepts_someGen.bind fun _ generation => ?_
  refine accepts_id.bind fun _ _ => accepts_id.bind fun _ _ => ?_
  refine accepts_string.bind fun _ policy => accepts_u64.bind fun _ _ => ?_
  refine accepts_string.bind fun _ digest => accepts_string.bind fun _ validationSummary => ?_
  refine accepts_bool.bind fun _ _ => Accepts.throwIf.bind fun _ total => ?_
  refine Accepts.throwIf.bind fun _ digest_eq => .pure ?_
  exact {
    generation, policy, digest, validationSummary
    members := ⟨members.1, members.2⟩
    nonempty := by simpa using nonempty
    total := by rw [not_not.mp total, memberTotal_toNat]
    digest_eq := (not_not.mp digest_eq).symm }

theorem accepts_workerCapability :
    Accepts BinReader.workerCapability WorkerCapability.WellFormed :=
  accepts_string.bind fun _ name => accepts_string.bind fun _ value => .pure ⟨name, value⟩

theorem accepts_worker : Accepts BinReader.worker WorkerRecord.WellFormed := by
  refine accepts_id.bind fun _ _ => accepts_id.bind fun _ _ => ?_
  refine accepts_string.bind fun _ address => accepts_id.bind fun _ _ => ?_
  refine accepts_id.bind fun _ _ => accepts_bool.bind fun _ _ => accepts_gen.bind fun _ _ => ?_
  refine (accepts_list accepts_workerCapability).bind fun _ capabilities => ?_
  refine accepts_u64.bind fun _ _ => (accepts_list accepts_id).bind fun _ localAdapters => ?_
  exact .pure ⟨address, ⟨capabilities.1, capabilities.2⟩, localAdapters.1⟩

theorem accepts_snapshot : Accepts BinReader.snapshot FabricSnapshot.WellFormed := by
  refine accepts_u32.bind fun _ _ => Accepts.throwIf.bind fun _ _ => ?_
  refine accepts_gen.bind fun _ _ => accepts_gen.bind fun _ _ => accepts_gen.bind fun _ _ => ?_
  refine (accepts_listFresh accepts_desc).bind fun _ adapters => ?_
  refine (accepts_listFresh accepts_composition).bind fun _ compositions => ?_
  refine (accepts_listFresh accepts_worker).bind fun _ workers => .pure ?_
  exact {
    adapters := ⟨adapters.1, adapters.2.1⟩
    compositions := ⟨compositions.1, compositions.2.1⟩
    workers := ⟨workers.1, workers.2.1⟩
    adapters_nodup := nodup_str_iff.mp adapters.2.2
    compositions_nodup := nodup_str_iff.mp compositions.2.2
    workers_nodup := nodup_str_iff.mp workers.2.2 }

theorem deserialize_serialize {s : FabricSnapshot} (h : s.WellFormed) :
    deserializeSnapshot (serializeSnapshot s) = .ok s :=
  decode_of_reads (reads_snapshot h)

theorem wellFormed_of_deserialize {b : Bytes} {s : FabricSnapshot}
    (h : deserializeSnapshot b = .ok s) : s.WellFormed :=
  (decode_inv accepts_snapshot h).1

/-- Decoding inverts encoding on the well-formed snapshots, and the decoder's image is exactly
those. -/
theorem snapshot_codec :
    (∀ s : FabricSnapshot, s.WellFormed → deserializeSnapshot (serializeSnapshot s) = .ok s) ∧
    ∀ (b : Bytes) (s : FabricSnapshot), deserializeSnapshot b = .ok s → s.WellFormed :=
  ⟨fun _ h => deserialize_serialize h, fun _ _ h => wellFormed_of_deserialize h⟩

/-! ### A snapshot with one adapter, one composition of it and one worker -/

def sampleDescriptor : AdapterDescriptor where
  id := ⟨.ofBytes [1]⟩
  artifactDigest := [7]
  kind := .lora
  name := ascii "a"
  targets := [{ name := ascii "q", inFeatures := 4, outFeatures := 4, shape := [4, 4] }]
  rank := 2
  dtype := .f16
  memoryBytes := 64
  generation := ⟨1⟩
  validation := .valid

def sampleMembers : List CompositionMember :=
  [{ adapterId := ⟨.ofBytes [1]⟩, generation := ⟨1⟩, memoryBytes := 64, kind := .lora }]

def sampleComposition : Composition where
  id := ⟨.ofBytes [2]⟩
  members := sampleMembers
  generation := ⟨1⟩
  policy := ascii "default"
  totalMemoryBytes := 64
  digest := CompositionBuilder.computeDigest sampleMembers (ascii "default")
  isValid := true

def sampleSnapshot : FabricSnapshot where
  nextAdapterGeneration := ⟨2⟩
  nextCompositionGeneration := ⟨2⟩
  adapters := [sampleDescriptor]
  compositions := [sampleComposition]
  workers := [{ id := ⟨.ofBytes [3]⟩, boot := ⟨.ofBytes [4]⟩, connected := true }]

theorem bounded_nil {α : Type} {limit : Nat} {p : α → Prop} : Bounded limit p [] :=
  ⟨Nat.zero_le _, by simp⟩

theorem bounded_singleton {α : Type} {limit : Nat} {p : α → Prop} {a : α} (hlimit : 1 ≤ limit)
    (h : p a) : Bounded limit p [a] :=
  ⟨hlimit, by simpa using h⟩

theorem sampleDescriptor_wellFormed : sampleDescriptor.WellFormed where
  artifactDigest := by decide
  kind := by decide
  name := by decide
  targets := bounded_singleton (by omega) ⟨by decide, by decide⟩
  dtype := by decide
  format := by decide
  formatVersion := by decide
  dependencies := bounded_nil
  capabilities := bounded_nil
  constraints := bounded_nil
  provenance := ⟨by decide, by decide, by decide, by decide, by decide⟩
  generation := by decide
  validation := by decide

theorem sampleComposition_wellFormed : sampleComposition.WellFormed where
  members := bounded_singleton (by omega) (by decide)
  nonempty := by simp [sampleComposition, sampleMembers]
  generation := by decide
  policy := by decide
  digest := by
    show List.length (CompositionBuilder.computeDigest _ _) < 2 ^ 32
    rw [CompositionBuilder.computeDigest_length]
    decide
  validationSummary := by decide
  total := rfl
  digest_eq := rfl

theorem sampleSnapshot_wellFormed : sampleSnapshot.WellFormed where
  adapters := bounded_singleton (by omega) sampleDescriptor_wellFormed
  compositions := bounded_singleton (by omega) sampleComposition_wellFormed
  workers := bounded_singleton (by omega) ⟨by decide, bounded_nil, by decide⟩
  adapters_nodup := by simp [sampleSnapshot]
  compositions_nodup := by simp [sampleSnapshot]
  workers_nodup := by simp [sampleSnapshot]

theorem snapshot_codec_sample :
    deserializeSnapshot (serializeSnapshot sampleSnapshot) = .ok sampleSnapshot :=
  snapshot_codec.1 sampleSnapshot sampleSnapshot_wellFormed

end AdapterFabric
