import AdapterFabric.Coordinator.LiveWorker
import AdapterFabric.Fabric.Lifecycle

/-!
# AdapterFabric.Coordinator.Lifecycle

Runs in which the coordinator serves requests while methods of its Fabric are called directly, and
the lifecycles along them.

* `Happens.actsAs`: what an act does to the records, one operation does.
* `lifecycle_obeys_iff`: a run obeys the allow-list exactly when every bind and every write of
  `ready` in it finds its record in a state from which the list has it.
-/

namespace AdapterFabric

namespace Coordinator

open Fabric (Op UsualStates sampleAdapter sampleWorker sampleOps)

/-- What changes the Fabric: a method called through `fabric()`, or a step of the coordinator. -/
inductive Act where
  | method (op : Op)
  | step (l : Label)

/-- The state after a method of the Fabric was called. -/
def Config.call (op : Op) (c : Config) : Config :=
  { c with shared := { c.shared with fabric := op.apply c.shared.fabric } }

inductive Happens : Config → Act → Config → Prop where
  | method {c : Config} (op : Op) (h : op.IsMethod) : Happens c (.method op) (c.call op)
  | step {c c' : Config} {l : Label} (h : Step c l c') : Happens c (.step l) c'

/-- The operations of a registration: none when its message does not parse. -/
def registerOps (f : Fabric) (msg : Message) : List Op :=
  match parseRegistration f.epoch msg with
  | .error _ => []
  | .ok rec => [.registerWorker rec, .onWorkerRestart rec.id rec.boot]

theorem wkRegister_eq_run (f : Fabric) (msg : Message) :
    wkRegister f msg = Fabric.run (registerOps f msg) f := by
  unfold wkRegister registerOps
  cases parseRegistration f.epoch msg with
  | error e => rfl
  | ok rec => rfl

namespace Act

/-- The operations an act performs. -/
def ops (c : Config) : Act → List Op
  | method op => [op]
  | step (.effect _ (.locked sec) _) => sec.ops c.shared
  | step (.event (.register msg)) => registerOps c.shared.fabric msg
  | step (.event (.down id)) => [.onWorkerDown id]
  | step _ => []

/-- The act changes the lifecycle of a record that exists as the allow-list has it. -/
def ObeysList (c : Config) (a : Act) (c' : Config) : Prop :=
  ∀ (k : Bytes) (ar ar' : AdapterAuthorityRecord), ¬ (∃ op ∈ a.ops c, op.Creates k) →
    c.shared.fabric.authority[k]? = some ar → c'.shared.fabric.authority[k]? = some ar' →
    ar.lifecycle ≠ ar'.lifecycle → lifecycleCanTransition ar.lifecycle ar'.lifecycle = true

def FindsReady (c : Config) (a : Act) : Prop := ∀ op ∈ a.ops c, op.FindsReady c.shared.fabric

end Act

/-! ## One operation for each act -/

/-- To the records `ops` does what `op` does, and for the same reasons. -/
structure ActsAs (f : Fabric) (ops : List Op) (op : Op) : Prop where
  setsReady : op.SetsReady
  authority : (Fabric.run ops f).authority = (op.apply f).authority
  creates : ∀ k, (∃ o ∈ ops, o.Creates k) ↔ op.Creates k
  findsReady : (∀ o ∈ ops, o.FindsReady f) ↔ op.FindsReady f

section ActsAs

variable {f : Fabric} {ops : List Op} {op : Op}

theorem ActsAs.single (h : op.SetsReady) : ActsAs f [op] op where
  setsReady := h
  authority := rfl
  creates k := by simp
  findsReady := by simp

/-- Operations that are not about authority act as if the epoch was advanced. -/
theorem ActsAs.quiet (h : ∀ op ∈ ops, op.isQuiet = true) : ActsAs f ops .advanceEpoch where
  setsReady := trivial
  authority := Run.exec_preserves (P := fun g : Fabric => g.authority = f.authority)
    (fun op ho g hg => ((Op.quiet_apply (h op ho) g).authority).trans hg) rfl
  creates k := by
    refine ⟨fun ⟨o, ho, hc⟩ => ?_, fun hc => hc.elim⟩
    cases o with
    | createInstance adapter worker boot device bytes rng => cases h _ ho
    | _ => exact hc
  findsReady := by
    refine ⟨fun _ => trivial, fun _ o ho => ?_⟩
    cases o with
    | bindAuthority id fence => cases h _ ho
    | setLifecycle id s => cases h _ ho
    | _ => trivial

theorem ActsAs.register (rec : WorkerRecord) (id : WorkerId) (boot : WorkerBootId) :
    ActsAs f [.registerWorker rec, .onWorkerRestart id boot] (.onWorkerRestart id boot) where
  setsReady := trivial
  authority := rfl
  creates k := by simp [Op.Creates]
  findsReady := by simp [Op.FindsReady]

theorem Section.actsAs (sec : Section) (s : Shared) : ∃ op, ActsAs f (sec.ops s) op := by
  cases sec with
  | markReady inst bytes => exact ⟨_, .quiet (by simp [Section.ops, Op.isQuiet])⟩
  | evict inst =>
    refine ⟨_, .quiet ?_⟩
    simp only [Section.ops]
    split <;> simp [Op.isQuiet]
  | pin text =>
    refine ⟨_, .quiet ?_⟩
    simp only [Section.ops]
    split <;> simp [Op.isQuiet]
  | unpin text =>
    refine ⟨_, .quiet ?_⟩
    simp only [Section.ops]
    split <;> simp [Op.isQuiet]
  | validate text t => exact ⟨_, .quiet (by simp [Section.ops])⟩
  | precheck fence => exact ⟨_, .quiet (by simp [Section.ops])⟩
  | snapshot => exact ⟨_, .quiet (by simp [Section.ops])⟩
  | list => exact ⟨_, .quiet (by simp [Section.ops])⟩
  | capacity => exact ⟨_, .quiet (by simp [Section.ops])⟩
  | setReady id => exact ⟨_, .single rfl⟩
  | _ => exact ⟨_, .single trivial⟩

end ActsAs

section Happens

variable {c c' : Config} {a : Act}

theorem Happens.fabric (h : Happens c a c') :
    c'.shared.fabric = Fabric.run (a.ops c) c.shared.fabric := by
  cases h with
  | method op h => rfl
  | step h =>
    rcases Interleave.Step.shared_cases h with ⟨i, req, rfl, he⟩ | ⟨i, e, r, rfl, he⟩ | ⟨v, rfl, he⟩
    · exact congrArg Shared.fabric he
    · have hfabric := exec_fabric (show exec c.shared e r c'.shared from he)
      cases e with
      | _ => exact hfabric
    · cases v with
      | register msg =>
        rw [show c'.shared = _ from he]
        exact wkRegister_eq_run _ msg
      | down id =>
        rw [show c'.shared = _ from he]
        rfl

theorem step_actsAs (c : Config) (l : Label) :
    ∃ op, ActsAs c.shared.fabric ((Act.step l).ops c) op := by
  cases l with
  | spawn i req => exact ⟨_, .quiet (by simp [Act.ops])⟩
  | effect i e r =>
    cases e with
    | locked sec => exact sec.actsAs c.shared
    | nextReq => exact ⟨_, .quiet (by simp [Act.ops])⟩
    | forward reqId workerId fwd => exact ⟨_, .quiet (by simp [Act.ops])⟩
    | shutdown => exact ⟨_, .quiet (by simp [Act.ops])⟩
  | event v =>
    cases v with
    | register msg =>
      simp only [Act.ops, registerOps]
      split
      · exact ⟨_, .quiet (by simp)⟩
      · exact ⟨_, .register _ _ _⟩
    | down id => exact ⟨_, .single trivial⟩

/-- What an act does to the records, one operation does. -/
theorem Happens.actsAs (h : Happens c a c') : ∃ op, ActsAs c.shared.fabric (a.ops c) op := by
  cases h with
  | method op h => exact ⟨op, .single h.setsReady⟩
  | step h => exact step_actsAs c _

theorem usualStates_happens (h : Happens c a c') (husual : UsualStates c.shared.fabric) :
    UsualStates c'.shared.fabric := by
  obtain ⟨op, hop⟩ := h.actsAs
  intro k ar har
  rw [h.fabric, hop.authority] at har
  exact husual.apply hop.setsReady k ar har

theorem obeysList_iff (h : Happens c a c') (husual : UsualStates c.shared.fabric) :
    a.ObeysList c c' ↔ a.FindsReady c := by
  obtain ⟨op, hop⟩ := h.actsAs
  rw [Act.FindsReady, hop.findsReady, ← Fabric.obeysList_iff husual hop.setsReady]
  simp only [Act.ObeysList, Op.ObeysList, h.fabric, hop.authority, hop.creates]

/-- A run obeys the allow-list exactly when every bind and every write of `ready` in it finds its
record in a state from which the list has it. -/
theorem lifecycle_obeys_iff {c₀ : Config} {path : List (Act × Config)}
    (h₀ : c₀.shared.fabric.Fresh) (h : Run.Each Happens c₀ path) :
    Run.Each (fun c a c' => a.ObeysList c c') c₀ path ↔
      Run.Each (fun c a _ => a.FindsReady c) c₀ path :=
  h.iff_of_step (I := fun c => UsualStates c.shared.fabric) (P := fun _ => True)
    usualStates_happens (fun _ _ _ _ => trivial)
    (fun hstep husual _ => obeysList_iff hstep husual) h₀.usualStates trivial

end Happens

/-! ### An adapter that is loaded, then bound -/

def findsReady (s : Shared) : Effect → Bool
  | .locked sec => decide (∀ op ∈ sec.ops s, op.FindsReady s.fabric)
  | _ => true

theorem findsReady_of_allows {c : Config} {l : Label} (h : Allows findsReady c l) :
    (Act.step l).FindsReady c := by
  cases l with
  | spawn i req => nofun
  | effect i e r =>
    cases e with
    | locked sec =>
      have hall : decide (∀ op ∈ sec.ops c.shared, op.FindsReady c.shared.fabric) = true := h
      have hfinds := of_decide_eq_true hall
      exact hfinds
    | _ => nofun
  | event v =>
    cases v with
    | register msg =>
      simp only [Act.FindsReady, Act.ops, registerOps]
      split <;> simp [Op.FindsReady]
    | down id => simp [Act.FindsReady, Act.ops, Op.FindsReady]

theorem lifecycle_obeys_iff_sample :
    ∃ c₀ path a c, Run.Each Happens c₀ path ∧ (a, c) ∈ path ∧
      (c.shared.fabric.authorityRecord sampleAdapter.id).map (·.lifecycle) = some .active ∧
      Run.Each (fun c a c' => a.ObeysList c c') c₀ path := by
  have hloaded : ReachesBy findsReady loadedState 2 :=
    (((ReachesBy.start ∅ .instanceInit).request sampleAck 1 adapterRequest
      (by decide +kernel)).event (v := .register workerRegistration) rfl).request sampleAck 6
        loadRequest (by decide +kernel)
  obtain ⟨c₀, path, l, c, h₀, hpath, hallows, hmem, hshared⟩ :=
    hloaded.request_path sampleAck 4 activateRequest (by decide +kernel)
  have hhappens : Run.Each Happens c₀ (path.map fun x => (.step x.1, x.2)) :=
    hpath.relabel Act.step fun _ _ _ h => .step h
  refine ⟨c₀, _, .step l, c, hhappens, List.mem_map_of_mem hmem, ?_, ?_⟩
  · rw [hshared]
    decide +kernel
  · exact (lifecycle_obeys_iff h₀.fresh hhappens).mpr
      (hallows.relabel Act.step fun _ _ _ h => findsReady_of_allows h)

/-! ### Methods called one after another -/

/-- The path of a coordinator that serves nobody, while the methods `ops` are called. -/
def calls : List Op → Config → List (Act × Config)
  | [], _ => []
  | op :: ops, c => (.method op, c.call op) :: calls ops (c.call op)

theorem calls_happen {ops : List Op} (hops : ∀ op ∈ ops, op.IsMethod) (c : Config) :
    Run.Each Happens c (calls ops c) := by
  induction ops generalizing c with
  | nil => trivial
  | cons op ops ih =>
    exact ⟨.method op (hops op (by simp)), ih (fun op' ho => hops op' (by simp [ho])) _⟩

/-- A coordinator that serves nobody yet. -/
def idleConfig : Config := ⟨{ fabric := .default, rng := .instanceInit }, fun _ => none⟩

/-- A bind takes an instance that was never loaded from `loading` to `active`. -/
theorem lifecycle_counterexample :
    ¬ ∀ (c₀ : Config) (path : List (Act × Config)), c₀.shared.fabric.Fresh →
      Run.Each Happens c₀ path → Run.Each (fun c a c' => a.ObeysList c c') c₀ path := by
  intro h
  have hpath := h idleConfig (calls sampleOps idleConfig) .default
    (calls_happen (by simp [sampleOps, Op.IsMethod]) _)
  obtain ⟨-, -, -, hbind, -⟩ := hpath
  obtain ⟨ar, har, hloading⟩ := Option.map_eq_some_iff.mp (show
    ((Fabric.run (sampleOps.take 3) .default).authority[sampleAdapter.id.str]?.map
      (·.lifecycle)) = some .loading by decide +kernel)
  obtain ⟨ar', har', hactive⟩ := Option.map_eq_some_iff.mp (show
    ((Fabric.run sampleOps .default).authority[sampleAdapter.id.str]?.map
      (·.lifecycle)) = some .active by decide +kernel)
  have hlist := hbind sampleAdapter.id.str ar ar' (by simp [Act.ops, Op.Creates]) har har'
  rw [hloading, hactive] at hlist
  exact absurd (hlist (by decide)) (by decide)

end Coordinator

end AdapterFabric
