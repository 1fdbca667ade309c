import AdapterFabric.Coordinator.LiveWorker
import AdapterFabric.Fabric.Validation

/-!
# AdapterFabric.Coordinator.Validation

Whether what the coordinator readies has been validated.

`evaluate_compatibility` reports the evidence of an adapter, but no section asks for it. So
`ready_valid_iff`: every state of a run has its ready adapters valid exactly when every section
happens to find them so.
-/

namespace AdapterFabric

namespace Coordinator

open Fabric (Op)

/-- The operations of a section find what they ready valid. -/
def FindsValid (c : Config) : Label → Prop
  | .effect _ (.locked sec) _ => ∀ op ∈ sec.ops c.shared, op.FindsValid c.shared.fabric
  | _ => True

section ReadyValid

variable {f : Fabric}

theorem readyValid_single {op : Op} (hop : Section.IsControl op) (h : f.ReadyValid) :
    (Fabric.run [op] f).ReadyValid ↔ ∀ o ∈ [op], o.FindsValid f := by
  rw [List.forall_mem_singleton]
  exact Fabric.readyValid_apply_iff hop.keyed.2 h

theorem readyValid_run {ops : List Op}
    (hops : ∀ op ∈ ops, op.isRecover = false ∧ op.isInert = true) (h : f.ReadyValid) :
    (Fabric.run ops f).ReadyValid :=
  Run.exec_preserves (P := Fabric.ReadyValid) (fun op ho g hg =>
    (Fabric.readyValid_apply_iff (hops op ho).1 hg).mpr (op.findsValid_of_inert (hops op ho).2 g)) h

theorem Section.readyValid_iff (sec : Section) (s : Shared) (h : s.fabric.ReadyValid) :
    (Fabric.run (sec.ops s) s.fabric).ReadyValid ↔
      ∀ op ∈ sec.ops s, op.FindsValid s.fabric := by
  have hcontrol := sec.ops_isControl s
  have hinert (hops : ∀ op ∈ sec.ops s, op.isInert = true) :
      (Fabric.run (sec.ops s) s.fabric).ReadyValid ↔ ∀ op ∈ sec.ops s, op.FindsValid s.fabric :=
    ⟨fun _ op ho => op.findsValid_of_inert (hops op ho) _,
      fun _ => readyValid_run (fun op ho => ⟨(hcontrol op ho).keyed.2, hops op ho⟩) h⟩
  cases sec with
  | registerAdapter d => exact readyValid_single (hcontrol _ (by simp [ops])) h
  | setReady id => exact readyValid_single (hcontrol _ (by simp [ops])) h
  | bind fence => exact readyValid_single (hcontrol _ (by simp [ops])) h
  | markReady inst bytes =>
    have hmark : ((Op.markReady inst bytes).apply s.fabric).ReadyValid ↔ _ :=
      Fabric.readyValid_apply_iff rfl h
    refine hmark.trans ⟨fun hfinds => ?_, fun hfinds => hfinds _ (by simp [ops])⟩
    -- the reservation that follows reads and writes the capacity only
    have hreserve : (Op.reserveCapacity .deviceMemory bytes inst.str).FindsValid s.fabric :=
      Op.findsValid_of_inert rfl _
    simpa [ops] using ⟨hfinds, hreserve⟩
  | evict inst =>
    refine hinert ?_
    simp only [ops]
    split <;> simp [Op.isInert]
  | pin text =>
    refine hinert ?_
    simp only [ops]
    split <;> simp [Op.isInert]
  | unpin text =>
    refine hinert ?_
    simp only [ops]
    split <;> simp [Op.isInert]
  | _ => exact hinert (by simp [ops, Op.isInert])

theorem readyValid_wkRegister (msg : Message) (h : f.ReadyValid) :
    (wkRegister f msg).ReadyValid := by
  rcases wkRegister_cases f msg with he | ⟨rec, _, _, _, he⟩
  · rwa [he]
  · rw [he]
    have hops : ∀ op ∈ [Op.registerWorker rec, .onWorkerRestart rec.id rec.boot],
        op.isRecover = false ∧ op.isInert = true := by simp [Op.isRecover, Op.isInert]
    exact readyValid_run hops h

end ReadyValid

theorem readyValid_step {c c' : Config} {l : Label} (hstep : Step c l c')
    (h : c.shared.fabric.ReadyValid) : c'.shared.fabric.ReadyValid ↔ FindsValid c l := by
  rcases Interleave.Step.shared_cases hstep with ⟨_, _, rfl, he⟩ | ⟨_, e, r, rfl, he⟩ | ⟨v, rfl, he⟩
  · rw [he]
    exact ⟨fun _ => trivial, fun _ => h⟩
  · rw [exec_fabric he]
    cases e with
    | locked sec => exact sec.readyValid_iff c.shared h
    | _ => exact ⟨fun _ => trivial, fun _ => h⟩
  · refine ⟨fun _ => trivial, fun _ => ?_⟩
    cases v with
    | register msg =>
      rw [show c'.shared.fabric = _ from congrArg Shared.fabric he]
      exact readyValid_wkRegister msg h
    | down id =>
      rw [show c'.shared.fabric = _ from congrArg Shared.fabric he]
      have hops : ∀ op ∈ [Op.onWorkerDown id], op.isRecover = false ∧ op.isInert = true := by
        simp [Op.isRecover, Op.isInert]
      exact readyValid_run hops h

/-- Every state of a run has its ready adapters valid exactly when every section finds what it
readies valid, and registers no other evidence for what is ready. -/
theorem ready_valid_iff {c₀ : Config} {path : List (Label × Config)} (h₀ : Initial c₀)
    (h : Run.Each Step c₀ path) :
    (∀ x ∈ path, x.2.shared.fabric.ReadyValid) ↔ Run.Each (fun c l _ => FindsValid c l) c₀ path :=
  h.always_iff (I := fun _ => True) (P := fun c => c.shared.fabric.ReadyValid)
    (fun _ _ => trivial) (fun hstep _ hP => readyValid_step hstep hP) trivial h₀.fresh.readyValid

/-! ### Sample runs -/

open Fabric (sampleAdapter)

def validRequest : Message :=
  { type := .ctlRegisterAdapter
    payload := serializeAdapter { sampleAdapter with generation := ⟨1⟩, validation := .valid } }

def validated (f : Fabric) (id : AdapterId) : Bool :=
  (f.adapter id).any fun d => d.validation = .valid

theorem validated_of_check {f : Fabric} {id : AdapterId} (h : validated f id = true) :
    f.Validated id := by
  obtain ⟨d, hd, hvalid⟩ := (Option.any_eq_true _ _).mp h
  exact ⟨d, hd, of_decide_eq_true hvalid⟩

/-- Is what the operation readies, or registers, valid? -/
def checksValid (f : Fabric) : Op → Bool
  | .registerAdapter d => d.validation = .valid
  | .setLifecycle id _ => validated f id
  | .bindAuthority id _ => validated f id
  | .markReady inst _ => (f.residency inst).all fun r => validated f r.adapterId
  | _ => true

theorem findsValid_of_check {f : Fabric} {op : Op} (h : checksValid f op = true) :
    op.FindsValid f := by
  cases op with
  | registerAdapter d =>
    refine ⟨nofun, fun d' hd' _ hnot => ?_⟩
    cases hd'
    exact absurd (of_decide_eq_true h) hnot
  | setLifecycle id s =>
    refine ⟨?_, nofun⟩
    rintro id' ⟨rfl, -⟩
    exact validated_of_check h
  | bindAuthority id fence =>
    refine ⟨?_, nofun⟩
    rintro id' ⟨rfl, -⟩
    exact validated_of_check h
  | markReady inst bytes =>
    refine ⟨?_, nofun⟩
    rintro id' ⟨r, hr, rfl⟩
    have hall : (f.residency inst).all _ = true := h
    rw [hr] at hall
    exact validated_of_check hall
  | _ => exact Op.findsValid_of_inert rfl f

def findsValid (s : Shared) : Effect → Bool
  | .locked sec => (sec.ops s).all (checksValid s.fabric)
  | _ => true

theorem findsValid_of_allows {c : Config} {l : Label} (h : Allows findsValid c l) :
    FindsValid c l := by
  cases l with
  | effect i e r =>
    cases e with
    | locked sec => exact fun op ho => findsValid_of_check (List.all_eq_true.mp h op ho)
    | _ => trivial
  | _ => trivial

/-- After a valid adapter and the worker are registered. -/
def validState : Shared :=
  let s : Shared := { fabric := .ofLimits ∅, rng := .instanceInit }
  let s := (serve sampleAck 1 validRequest s).2
  { s with fabric := wkRegister s.fabric workerRegistration }

/-- A load of the adapter that was registered valid. -/
theorem ready_valid_iff_sample :
    ∃ c₀ path l c, Initial c₀ ∧ Run.Each Step c₀ path ∧ (l, c) ∈ path ∧
      (c.shared.fabric.authorityRecord sampleAdapter.id).map (·.lifecycle) = some .ready ∧
      c.shared.fabric.ReadyValid := by
  have hregistered : ReachesBy findsValid validState 1 :=
    ((ReachesBy.start ∅ .instanceInit).request sampleAck 1 validRequest
      (by decide +kernel)).event (v := .register workerRegistration) rfl
  obtain ⟨c₀, path, l, c, h₀, hpath, hallows, hmem, hshared⟩ :=
    hregistered.request_path sampleAck 6 loadRequest (by decide +kernel)
  refine ⟨c₀, path, l, c, h₀, hpath, hmem, ?_, ?_⟩
  · rw [hshared]
    decide +kernel
  · exact (ready_valid_iff h₀ hpath).mpr (hallows.imp fun _ _ _ h => findsValid_of_allows h) _ hmem

/-- A load of an adapter that nobody has validated. -/
theorem ready_valid_counterexample :
    ∃ c₀ ls c, Initial c₀ ∧ Steps c₀ ls c ∧ ¬ c.shared.fabric.ReadyValid := by
  obtain ⟨c₀, ls, c, h₀, hrun, hshared, _⟩ := reaches_loaded
  refine ⟨c₀, ls, c, h₀, hrun, fun hvalid => ?_⟩
  rw [hshared] at hvalid
  have hready : (loadedState.fabric.authorityRecord sampleAdapter.id).map (·.lifecycle) =
      some .ready := by decide +kernel
  have hnone : (loadedState.fabric.adapter sampleAdapter.id).map (·.validation) =
      some .none := by decide +kernel
  obtain ⟨ar, har, hl⟩ := Option.map_eq_some_iff.mp hready
  obtain ⟨d, hd, hval⟩ := hvalid sampleAdapter.id (.inl ⟨ar, har, .inl hl⟩)
  rw [hd, Option.map_some, hval] at hnone
  cases hnone

end Coordinator

end AdapterFabric
