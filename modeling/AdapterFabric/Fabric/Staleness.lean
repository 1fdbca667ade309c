import AdapterFabric.Fabric.Currency
import AdapterFabric.Fabric.Reload

/-!
# AdapterFabric.Fabric.Staleness

Fences whose components are not those of the Fabric any more.

* `Current.not_stale`: a fence that is authorized is not stale.
* `not_stale_run`: it becomes stale only by a registration of its adapter, a registration of its
  worker under another boot, a bind of its adapter under another attempt, or an epoch roll.
-/

namespace AdapterFabric

namespace Fabric

/-- The fence carries another epoch, attempt or generation than the Fabric has for its adapter, or
another boot than its worker is registered with. -/
inductive Stale (f : Fabric) (F : AuthorityFence) : Prop where
  | epoch (h : F.epoch ≠ f.epoch)
  | adapterGeneration {d : AdapterDescriptor} (hd : f.adapter F.adapter = some d)
    (h : F.adapterGeneration ≠ d.generation)
  | boot {w : WorkerRecord} (hw : f.worker F.worker = some w) (h : F.boot ≠ w.boot)
  | attempt {t : AttemptId} (ht : f.currentAttempt[F.adapter.str]? = some t) (h : t ≠ F.attempt)
  | residencyGeneration (h : F.residencyGeneration ≠ f.expectedResidencyGeneration F.adapter)
  | compositionGeneration (h : F.compositionGeneration ≠ f.expectedCompositionGeneration F.adapter)
  | artifactGeneration (h : F.artifactGeneration ≠ f.expectedArtifactGeneration F.adapter)

/-- What can make the fence stale. -/
def Op.Outdates (F : AuthorityFence) : Op → Prop
  | .registerAdapter d => d.id = F.adapter
  | .registerWorker rec => rec.id = F.worker ∧ rec.boot ≠ F.boot
  | .bindAuthority id G => id = F.adapter ∧ G.attempt ≠ F.attempt
  | .advanceEpoch => True
  | _ => False

section Stale

variable {f : Fabric} {F : AuthorityFence} {op : Op}

theorem Current.not_stale {d : AdapterDescriptor} {w : WorkerRecord} (h : f.Current F d w) :
    ¬ f.Stale F := by
  intro hstale
  cases hstale with
  | epoch hne => exact hne h.epoch
  | adapterGeneration hd hne =>
    obtain rfl := Option.some.inj (h.adapter.symm.trans hd)
    exact hne h.adapterGeneration
  | boot hw hne =>
    obtain rfl := Option.some.inj (h.worker.symm.trans hw)
    exact hne h.boot
  | attempt ht hne => exact hne (h.attempt _ ht)
  | residencyGeneration hne => exact hne h.residencyGeneration
  | compositionGeneration hne => exact hne h.compositionGeneration
  | artifactGeneration hne => exact hne h.artifactGeneration

theorem not_stale_of_authorized (h : (f.checkFence F).authorized = true) : ¬ f.Stale F := by
  obtain ⟨d, w, hc⟩ := checkFence_authorized.mp h
  exact hc.not_stale

/-! ## One operation -/

theorem epoch_kept (hrec : op.isRecover = false) (hop : ¬ op.Outdates F) :
    (op.apply f).epoch = f.epoch := by
  by_cases hreg : ∃ d, op = .registerAdapter d
  · obtain ⟨d, rfl⟩ := hreg
    obtain ⟨_, _, he⟩ := registerAdapter_frame f d
    simp only [Op.apply, he]
  have hepoch : op ≠ .advanceEpoch := by
    rintro rfl
    exact hop trivial
  exact (registry_frame (fun d hd => hreg ⟨d, hd⟩) hepoch hrec f).1

theorem adapter_kept (hrec : op.isRecover = false) (hop : ¬ op.Outdates F) :
    (op.apply f).adapter F.adapter = f.adapter F.adapter := by
  by_cases hreg : ∃ d, op = .registerAdapter d
  · obtain ⟨d, rfl⟩ := hreg
    rcases registerAdapter_cases f d with ⟨_, e, he⟩ | ⟨_, he⟩
    · simp only [Op.apply, he]
    · simp only [Op.apply, he]
      show (f.adapters.insert d.id.str { d with generation := f.nextAdapterGen })[
        F.adapter.str]? = f.adapters[F.adapter.str]?
      rw [Table.get_insert, if_neg fun hstr => hop (Id.str_inj hstr)]
  have hepoch : op ≠ .advanceEpoch := by
    rintro rfl
    exact hop trivial
  rw [adapter, adapter, (registry_frame (fun d hd => hreg ⟨d, hd⟩) hepoch hrec f).2.2]

theorem boot_kept (hrec : op.isRecover = false) (hop : ¬ op.Outdates F) {w : WorkerRecord}
    (hw : (op.apply f).worker F.worker = some w) :
    w.boot = F.boot ∨ ∃ w₀, f.worker F.worker = some w₀ ∧ w₀.boot = w.boot := by
  by_cases hreg : ∃ rec, op = .registerWorker rec
  · obtain ⟨rec, rfl⟩ := hreg
    have hw : (f.workers.insert rec.id.str rec)[F.worker.str]? = some w := hw
    rcases Table.of_insert hw with ⟨hstr, rfl⟩ | hw
    · exact .inl (not_not.mp fun hne => hop ⟨Id.str_inj hstr, hne⟩)
    · exact .inr ⟨w, hw, rfl⟩
  by_cases hdown : ∃ id, op = .onWorkerDown id
  · obtain ⟨id, rfl⟩ := hdown
    have hw : (f.workers.modify id.str fun w => { w with connected := false })[
      F.worker.str]? = some w := hw
    rcases Table.of_modify hw with ⟨_, w₀, hw₀, rfl⟩ | hw
    · exact .inr ⟨w₀, hw₀, rfl⟩
    · exact .inr ⟨w, hw, rfl⟩
  have hworkers := workers_frame (fun rec hr => hreg ⟨rec, hr⟩) (fun id hd => hdown ⟨id, hd⟩) hrec f
  rw [worker, hworkers] at hw
  exact .inr ⟨w, hw, rfl⟩

theorem attempt_of_not_outdates (hop : ¬ op.Outdates F) {t : AttemptId}
    (ht : (op.apply f).currentAttempt[F.adapter.str]? = some t) :
    t = F.attempt ∨ f.currentAttempt[F.adapter.str]? = some t := by
  by_cases hbind : ∃ id G, op = .bindAuthority id G
  · obtain ⟨id, G, rfl⟩ := hbind
    rcases bindAuthority_cases f id G with he | ⟨ar, _, _, _, he⟩
    · simp only [Op.apply, he] at ht
      exact .inr ht
    · simp only [Op.apply, he] at ht
      rcases Table.of_insert ht with ⟨hstr, rfl⟩ | ht
      · exact .inl (not_not.mp fun hne => hop ⟨Id.str_inj hstr, hne⟩)
      · exact .inr ht
  · rcases attempt_cases ht with ht | ⟨id, G, rfl, _⟩
    · exact .inr ht
    · exact absurd ⟨id, G, rfl⟩ hbind

/-- The generations of records stay at one, so those of the fence stay what is expected. -/
theorem not_stale_step (hone : AllOne f) (hF : OneGenerations F) (hrec : op.isRecover = false)
    (hop : ¬ op.Outdates F) (h : ¬ f.Stale F) : ¬ (op.apply f).Stale F := by
  obtain ⟨hres, hcomp, hart⟩ := (hone.apply op).expected F.adapter
  intro hstale
  cases hstale with
  | epoch hne =>
    rw [epoch_kept hrec hop] at hne
    exact h (.epoch hne)
  | adapterGeneration hd hne =>
    rw [adapter_kept hrec hop] at hd
    exact h (.adapterGeneration hd hne)
  | boot hw hne =>
    rcases boot_kept hrec hop hw with hsame | ⟨w₀, hw₀, hboot⟩
    · exact hne hsame.symm
    · exact h (.boot hw₀ (by rwa [hboot]))
  | attempt ht hne =>
    rcases attempt_of_not_outdates hop ht with hsame | ht
    · exact hne hsame
    · exact h (.attempt ht hne)
  | residencyGeneration hne => exact hne (hF.residency.trans hres.symm)
  | compositionGeneration hne => exact hne (hF.composition.trans hcomp.symm)
  | artifactGeneration hne => exact hne (hF.artifact.trans hart.symm)

theorem not_stale_run {ops : List Op} (hops : ∀ op ∈ ops, op.isRecover = false ∧ ¬ op.Outdates F)
    (hF : OneGenerations F) (hone : AllOne f) (h : ¬ f.Stale F) : ¬ (run ops f).Stale F :=
  (Run.exec_preserves (P := fun g => AllOne g ∧ ¬ g.Stale F) (fun op ho _ hg =>
    ⟨hg.1.apply op, not_stale_step hg.1 hF (hops op ho).1 (hops op ho).2 hg.2⟩) ⟨hone, h⟩).2

end Stale

end Fabric

end AdapterFabric
