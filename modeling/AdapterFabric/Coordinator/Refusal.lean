import AdapterFabric.Coordinator.Sequential

/-!
# AdapterFabric.Coordinator.Refusal

What a refused control request leaves behind.

* `dispatch_clean`: no handler but those of `ctl_load` and `ctl_deactivate` refuses a request after
  it has changed the Fabric.
* `refused_unchanged_iff`: a refused request leaves the Fabric as it was, except for loads that
  the worker refuses, and its refused deactivations of adapters that are not ready.
-/

namespace AdapterFabric

namespace Coordinator

namespace Ctl

/-! ## Handlers that refuse without a trace -/

/-- The handler answers ok, or leaves the Fabric `f`. -/
def Clean (ack : Message) (f : Fabric) (h : Ctl Message) (s : Shared) : Prop :=
  (∃ out, (eval ack h s).1 = .ok out ∧ out.ok = true) ∨ (eval ack h s).2.fabric = f

theorem evict_refused {f : Fabric} {inst : AdapterInstanceId} (h : ¬ (f.evict inst).1.1 = true) :
    (f.evict inst).2 = f := by
  unfold Fabric.evict at h ⊢
  cases hr : f.residency inst with
  | none => rfl
  | some rec =>
    rw [hr] at h
    dsimp only at h ⊢
    split
    · rfl
    · split
      · rfl
      · rename_i h₁ h₂
        rw [if_neg h₁, if_neg h₂] at h
        exact absurd rfl h

theorem pin_refused {f : Fabric} {inst : AdapterInstanceId} {e : Error}
    (h : (f.pin inst).1 = .error e) : (f.pin inst).2 = f := by
  unfold Fabric.pin at h ⊢
  cases hr : f.residency inst with
  | none => rfl
  | some rec =>
    rw [hr] at h
    cases h

theorem unpin_refused {f : Fabric} {inst : AdapterInstanceId} {e : Error}
    (h : (f.unpin inst).1 = .error e) : (f.unpin inst).2 = f := by
  unfold Fabric.unpin at h ⊢
  cases hr : f.residency inst with
  | none => rfl
  | some rec =>
    rw [hr] at h
    cases h

theorem build_valid {b : CompositionBuilder} {rng : Rng} {c : Composition}
    (h : (b.build rng).1 = .ok c) : c.isValid = true := by
  unfold CompositionBuilder.build at h
  dsimp only at h
  split at h
  · cases h
  · obtain ⟨total, _, h⟩ := bind_eq_ok.mp h
    cases h
    rfl

/-- `publish_composition` throws and leaves the Fabric alone, or returns a valid composition. -/
theorem publishComposition_outcome (f : Fabric) (ids : List AdapterId) (policy : Bytes)
    (rng : Rng) :
    ((∃ e, (f.publishComposition ids policy rng).1 = .error e) ∧
      (f.publishComposition ids policy rng).2.1 = f) ∨
    ∃ c, (f.publishComposition ids policy rng).1 = .ok c ∧ c.isValid = true := by
  unfold Fabric.publishComposition
  cases ids with
  | nil => exact .inl ⟨⟨_, rfl⟩, rfl⟩
  | cons id ids =>
    dsimp only
    cases f.adapter id with
    | none => exact .inl ⟨⟨_, rfl⟩, rfl⟩
    | some first =>
      dsimp only
      split
      · exact .inl ⟨⟨_, rfl⟩, rfl⟩
      · split
        · exact .inl ⟨⟨_, rfl⟩, rfl⟩
        · rename_i hbuild
          exact .inr ⟨_, rfl, build_valid (congrArg Prod.fst hbuild)⟩

section Clean

variable {ack req : Message} {f : Fabric} {s : Shared} {α : Type}

theorem clean_ok {out : Message} (h : out.ok = true) : Clean ack f (pure out) s :=
  .inl ⟨out, rfl, h⟩

theorem clean_pure (out : Message) (h : s.fabric = f) : Clean ack f (pure out) s := .inr h

theorem clean_ite {p : Prop} [Decidable p] {h h' : Ctl Message} (hthen : p → Clean ack f h s)
    (helse : ¬ p → Clean ack f h' s) : Clean ack f (if p then h else h') s := by
  by_cases hp : p
  · rw [if_pos hp]
    exact hthen hp
  · rw [if_neg hp]
    exact helse hp

theorem clean_orThrow {r : Except Error α} {k : α → Ctl Message}
    (herror : ∀ e, r = .error e → s.fabric = f) (hok : ∀ a, r = .ok a → Clean ack f (k a) s) :
    Clean ack f (orThrow r >>= k) s := by
  unfold Clean
  cases hr : r with
  | error e =>
    rw [eval_orThrow_error rfl]
    exact .inr (herror e hr)
  | ok a =>
    rw [eval_orThrow_ok rfl]
    exact hok a hr

theorem clean_locked {sec : Section} {k : sec.Res → Ctl Message}
    (h : Clean ack f (k (sec.run s).1) (sec.run s).2) : Clean ack f (locked sec >>= k) s := by
  unfold Clean
  rw [eval_locked_bind]
  exact h

theorem clean_forward {workerId : Bytes} {fwd : Message} {k : Message → Ctl Message}
    (h : Clean ack f (k ack) { s with nextReq := s.nextReq + 1 }) :
    Clean ack f (forwardToWorker workerId fwd >>= k) s := by
  unfold Clean
  rw [eval_forward_bind]
  exact h

theorem clean_registerAdapter : Clean ack s.fabric (registerAdapter req) s := by
  refine clean_orThrow (fun _ _ => rfl) fun d _ => clean_locked (clean_orThrow ?_ fun _ _ => ?_)
  · intro e he
    show (s.fabric.registerAdapter d).2 = s.fabric
    rcases Fabric.registerAdapter_cases s.fabric d with ⟨_, _, hd⟩ | ⟨_, hd⟩
    · rw [hd]
    · have he : (s.fabric.registerAdapter d).1 = .error e := he
      rw [hd] at he
      cases he
  · exact clean_ok rfl

theorem clean_validate : Clean ack s.fabric (validate req) s := by
  refine clean_orThrow (fun _ _ => rfl) fun _ _ => clean_orThrow (fun _ _ => rfl) fun _ _ => ?_
  exact clean_locked (clean_orThrow (fun _ _ => rfl) fun _ _ => clean_pure _ rfl)

theorem clean_activate : Clean ack s.fabric (activate req) s := by
  refine clean_orThrow (fun _ _ => rfl) fun fence _ => clean_locked ?_
  split
  · exact clean_pure _ rfl
  · refine clean_forward ?_
    split
    · refine clean_locked (clean_orThrow ?_ fun check hcheck => ?_)
      · intro e he
        show (s.fabric.bindAuthority fence.adapter fence).2 = s.fabric
        rcases Fabric.bindAuthority_cases s.fabric fence.adapter fence with hb | ⟨_, _, _, _, hb⟩
        · exact hb
        · have he : (s.fabric.bindAuthority fence.adapter fence).1 = .error e := he
          rw [hb] at he
          cases he
      · -- an unauthorized check comes with the Fabric as it was
        by_cases hauth : check.authorized = true
        · exact clean_ok hauth
        · refine clean_pure _ ?_
          show (s.fabric.bindAuthority fence.adapter fence).2 = s.fabric
          have hcheck : (s.fabric.bindAuthority fence.adapter fence).1 = .ok check := hcheck
          unfold Fabric.bindAuthority
          rw [Fabric.bindAuthority_ok hcheck, if_pos hauth]
    · exact clean_pure _ rfl

theorem clean_migrate : Clean ack s.fabric (migrate req) s :=
  clean_orThrow (fun _ _ => rfl) fun _ _ => clean_forward (clean_pure _ rfl)

theorem clean_invalidate : Clean ack s.fabric (invalidate req) s :=
  clean_orThrow (fun _ _ => rfl) fun _ _ => clean_locked (clean_forward (clean_ok rfl))

theorem clean_evict : Clean ack s.fabric (evict req) s := by
  refine clean_orThrow (fun _ _ => rfl) fun inst _ => clean_locked (clean_forward ?_)
  by_cases hok : (s.fabric.evict inst).1.1 = true
  · exact clean_ok hok
  · refine clean_pure _ ?_
    have hfabric : ((Section.evict inst).run s).2.fabric = (s.fabric.evict inst).2 := by
      show (if (s.fabric.evict inst).1.1 then _ else (s.fabric.evict inst).2) = _
      rw [if_neg hok]
    show ((Section.evict inst).run s).2.fabric = s.fabric
    rw [hfabric]
    exact evict_refused hok

theorem clean_pin : Clean ack s.fabric (pin req) s := by
  refine clean_locked (clean_orThrow (fun e he => ?_) fun _ _ => clean_ok rfl)
  simp only [Section.run] at he ⊢
  cases hid : (mustParse req.text : Except Error AdapterInstanceId) with
  | error _ => rfl
  | ok inst =>
    rw [hid] at he
    exact pin_refused he

theorem clean_unpin : Clean ack s.fabric (unpin req) s := by
  refine clean_locked (clean_orThrow (fun e he => ?_) fun _ _ => clean_ok rfl)
  simp only [Section.run] at he ⊢
  cases hid : (mustParse req.text : Except Error AdapterInstanceId) with
  | error _ => rfl
  | ok inst =>
    rw [hid] at he
    exact unpin_refused he

theorem clean_compose : Clean ack s.fabric (compose req) s := by
  refine clean_orThrow (fun _ _ => rfl) fun ids _ => clean_locked (clean_orThrow ?_ ?_)
  · intro e he
    rcases publishComposition_outcome s.fabric ids _ s.rng with ⟨_, hsame⟩ | ⟨c, hc, _⟩
    · exact hsame
    · cases he.symm.trans hc
  · intro c hc
    rcases publishComposition_outcome s.fabric ids _ s.rng with ⟨⟨e, he⟩, _⟩ | ⟨c', hc', hvalid⟩
    · cases he.symm.trans hc
    · cases hc'.symm.trans hc
      exact clean_ok hvalid

theorem dispatch_clean (hload : req.type ≠ .ctlLoad) (hdeactivate : req.type ≠ .ctlDeactivate) :
    Clean ack s.fabric (dispatch req) s := by
  refine clean_ite (fun _ => clean_registerAdapter) fun _ => ?_
  refine clean_ite (fun _ => clean_validate) fun _ => ?_
  refine clean_ite (fun h => absurd h hload) fun _ => ?_
  refine clean_ite (fun _ => clean_activate) fun _ => ?_
  refine clean_ite (fun h => absurd h hdeactivate) fun _ => ?_
  refine clean_ite (fun _ => clean_migrate) fun _ => ?_
  refine clean_ite (fun _ => clean_invalidate) fun _ => ?_
  refine clean_ite (fun _ => clean_evict) fun _ => ?_
  refine clean_ite (fun _ => clean_pin) fun _ => ?_
  refine clean_ite (fun _ => clean_unpin) fun _ => ?_
  refine clean_ite (fun _ => clean_locked (clean_ok rfl)) fun _ => ?_
  refine clean_ite (fun _ => clean_locked (clean_ok rfl)) fun _ => ?_
  refine clean_ite (fun _ => clean_compose) fun _ => ?_
  refine clean_ite (fun _ => clean_locked (clean_ok rfl)) fun _ => ?_
  refine clean_ite (fun _ => clean_locked (clean_ok rfl)) fun _ => ?_
  refine clean_ite (fun _ => .inl ⟨_, rfl, rfl⟩) fun _ => ?_
  exact clean_ite (fun _ => clean_ok rfl) fun _ => clean_pure _ rfl

end Clean

/-! ## Refused loads and deactivations -/

section Refused

variable {ack req : Message} {s : Shared}

/-- The id that the next instance gets. -/
def nextInstance (s : Shared) : AdapterInstanceId := (Id.generate s.rng).1

/-- The residency that `create_instance` makes for a fence of the adapter `d`. -/
def newResidency (s : Shared) (d : AdapterDescriptor) (fence : AuthorityFence) :
    ResidencyRecord where
  instanceId := nextInstance s
  adapterId := fence.adapter
  adapterGeneration := d.generation
  residencyGeneration := ⟨1⟩
  location := .deviceMemory
  bytes := d.memoryBytes
  worker := fence.worker
  boot := fence.boot
  epoch := s.fabric.epoch
  device := fence.device

/-- The authority record by which it replaces the one of the adapter. -/
def newRecord (s : Shared) (d : AdapterDescriptor) (fence : AuthorityFence) :
    AdapterAuthorityRecord where
  adapter := fence.adapter
  instanceId := nextInstance s
  lifecycle := .loading
  residencyGeneration := ⟨1⟩
  fence := {
    adapter := fence.adapter
    epoch := s.fabric.epoch
    adapterGeneration := d.generation
    baseModelRevision := d.baseModelRevision
    worker := fence.worker
    boot := fence.boot
    device := fence.device
    residencyGeneration := ⟨1⟩
    compositionGeneration := ⟨1⟩
    artifactGeneration := ⟨1⟩ }

def created (s : Shared) (d : AdapterDescriptor) (fence : AuthorityFence) : Shared :=
  { s with
    fabric := { s.fabric with
      residencies := s.fabric.residencies.insert (nextInstance s).str (newResidency s d fence)
      authority := s.fabric.authority.insert fence.adapter.str (newRecord s d fence) }
    rng := (Id.generate s.rng : AdapterInstanceId × Rng).2 }

theorem run_createInstance {fence : AuthorityFence} {d : AdapterDescriptor}
    (hd : s.fabric.adapter fence.adapter = some d) :
    (Section.createInstance fence).run s = (.ok (nextInstance s), created s d fence) := by
  unfold Section.run Fabric.createInstance
  dsimp only
  rw [hd]
  rfl

/-- A load whose fence is refused, or that the worker acknowledges. -/
theorem load_clean (h : ack.ok = true ∨ ∀ fence, decodeFence req.payload = .ok fence →
    ¬ (s.fabric.checkFence fence).authorized = true) :
    Clean ack s.fabric (load req) s := by
  refine clean_orThrow (fun _ _ => rfl) fun fence hfence => clean_locked ?_
  refine clean_ite (fun _ => clean_pure _ rfl) fun hauth => ?_
  have hauth : (s.fabric.checkFence fence).authorized = true := not_not.mp hauth
  have hack : ack.ok = true := h.resolve_right fun hno => hno fence hfence hauth
  obtain ⟨d, w, hc⟩ := Fabric.checkFence_authorized.mp hauth
  have hrun : (Section.createInstance fence).run ((Section.precheck fence).run s).2 =
      (.ok (nextInstance s), created s d fence) := run_createInstance hc.adapter
  refine clean_locked (clean_orThrow (fun e he => ?_) fun inst _ => clean_forward ?_)
  · rw [hrun] at he
    cases he
  · refine clean_ite (fun _ => ?_) fun hno => absurd hack hno
    exact clean_locked (clean_locked (clean_ok rfl))

theorem load_refused {fence : AuthorityFence} {d : AdapterDescriptor} (hack : ack.ok = false)
    (hfence : decodeFence req.payload = .ok fence)
    (hauth : (s.fabric.checkFence fence).authorized = true)
    (hd : s.fabric.adapter fence.adapter = some d) :
    (∃ out, (eval ack (load req) s).1 = .ok out ∧ out.ok = false) ∧
      (eval ack (load req) s).2.fabric = (created s d fence).fabric := by
  have hrun : (Section.createInstance fence).run ((Section.precheck fence).run s).2 =
      (.ok (nextInstance s), created s d fence) := run_createInstance hd
  have hpre : ((Section.precheck fence).run s).1.authorized = true := hauth
  have heval : eval ack (load req) s =
      (.ok { out with ok := false, text := ack.text, text2 := (nextInstance s).str },
        { created s d fence with nextReq := s.nextReq + 1 }) := by
    unfold load
    rw [eval_orThrow_ok hfence, eval_locked_bind, if_neg (not_not.mpr hpre), eval_locked_bind,
      hrun, eval_orThrow_ok rfl, eval_forward_bind, hack]
    rfl
  rw [heval]
  exact ⟨⟨_, rfl, rfl⟩, rfl⟩

/-- The lifecycle of the adapter becomes ready, whatever the worker says. -/
theorem eval_deactivate (ack : Message) (s : Shared) {id : AdapterId}
    (hid : mustParse req.text = .ok id) :
    (∃ out, (eval ack (deactivate req) s).1 = .ok out ∧ out.ok = ack.ok) ∧
      (eval ack (deactivate req) s).2.fabric = s.fabric.setLifecycle id .ready := by
  have heval : eval ack (deactivate req) s =
      (.ok { out with ok := ack.ok, text := if ack.ok then ascii "deactivated" else ack.text },
        { s with fabric := s.fabric.setLifecycle id .ready, nextReq := s.nextReq + 1 }) := by
    unfold deactivate
    rw [eval_orThrow_ok hid, eval_forward_bind, eval_locked_bind]
    rfl
  rw [heval]
  exact ⟨⟨_, rfl, rfl⟩, rfl⟩

theorem deactivate_clean (h : ack.ok = true ∨ ∀ id : AdapterId, mustParse req.text ≠ .ok id) :
    Clean ack s.fabric (deactivate req) s := by
  refine clean_orThrow (fun _ _ => rfl) fun id hid => clean_forward (clean_locked (clean_ok ?_))
  exact h.resolve_right fun hno => hno id hid

end Refused

end Ctl

/-! ## Refused requests -/

open Ctl (newResidency newRecord nextInstance created)
open Fabric (sampleFence)

/-- What can be seen of the Fabric, apart from its log of invalidations, is the same. -/
structure Unchanged (f f' : Fabric) : Prop where
  adapters : f'.adapters = f.adapters
  compositions : f'.compositions = f.compositions
  workers : f'.workers = f.workers
  authority : f'.authority = f.authority
  residencies : f'.residencies = f.residencies
  activeFence : f'.activeFence = f.activeFence
  currentAttempt : f'.currentAttempt = f.currentAttempt
  capacity : f'.capacity = f.capacity
  epoch : f'.epoch = f.epoch
  nextAdapterGen : f'.nextAdapterGen = f.nextAdapterGen
  nextCompositionGen : f'.nextCompositionGen = f.nextCompositionGen

/-- The Fabric holds just what a load of `fence` would write. -/
def AlreadyLoaded (s : Shared) (d : AdapterDescriptor) (fence : AuthorityFence) : Prop :=
  s.fabric.residency (nextInstance s) = some (newResidency s d fence) ∧
    s.fabric.authorityRecord fence.adapter = some (newRecord s d fence)

/-- When the worker refuses a load that passed its check, there is nothing to write; when it refuses
a deactivation, the adapter is ready anyhow. -/
structure Traceless (ack req : Message) (s : Shared) : Prop where
  load : req.type = .ctlLoad → ack.ok = false → ∀ fence d, decodeFence req.payload = .ok fence →
    (s.fabric.checkFence fence).authorized = true → s.fabric.adapter fence.adapter = some d →
      AlreadyLoaded s d fence
  deactivate : req.type = .ctlDeactivate → ack.ok = false → ∀ id ar,
    mustParse req.text = .ok id → s.fabric.authorityRecord id = some ar → ar.lifecycle = .ready

section Unchanged

variable {f : Fabric} {s : Shared} {ack req : Message}

theorem Unchanged.of_eq {f' : Fabric} (h : f' = f) : Unchanged f f' := by
  subst h
  exact ⟨rfl, rfl, rfl, rfl, rfl, rfl, rfl, rfl, rfl, rfl, rfl⟩

theorem unchanged_created_iff {d : AdapterDescriptor} {fence : AuthorityFence} :
    Unchanged s.fabric (created s d fence).fabric ↔ AlreadyLoaded s d fence := by
  constructor
  · intro h
    exact ⟨Table.insert_eq_self.mp h.residencies, Table.insert_eq_self.mp h.authority⟩
  · rintro ⟨hres, hauth⟩
    exact ⟨rfl, rfl, rfl, Table.insert_eq_self.mpr hauth, Table.insert_eq_self.mpr hres,
      rfl, rfl, rfl, rfl, rfl, rfl⟩

theorem unchanged_setLifecycle_iff {id : AdapterId} {state : LifecycleState} :
    Unchanged f (f.setLifecycle id state) ↔
      ∀ ar, f.authorityRecord id = some ar → ar.lifecycle = state := by
  have hmodify : (f.setLifecycle id state).authority = f.authority ↔ ∀ ar,
      f.authorityRecord id = some ar → ({ ar with lifecycle := state } : AdapterAuthorityRecord) =
        ar := Table.modify_eq_self
  constructor
  · intro h ar har
    exact (congrArg (·.lifecycle) (hmodify.mp h.authority ar har)).symm
  · intro h
    refine ⟨rfl, rfl, rfl, hmodify.mpr fun ar har => ?_, rfl, rfl, rfl, rfl, rfl, rfl, rfl⟩
    rw [← h ar har]

/-- A refused request has gone through a handler that is not `Clean` unless nothing changed. -/
theorem unchanged_of_clean (h : Ctl.Clean ack s.fabric (Ctl.dispatch req) s)
    (href : (served ack req s).1.ok = false) : Unchanged s.fabric (served ack req s).2.fabric := by
  rw [served_eq] at href ⊢
  rcases h with ⟨out, hout, hok⟩ | hsame
  · rw [hout] at href
    cases hok.symm.trans href
  · exact .of_eq hsame

theorem served_of_eval {f' : Fabric} (h : (∃ out, (Ctl.eval ack (Ctl.dispatch req) s).1 = .ok out ∧
    out.ok = false) ∧ (Ctl.eval ack (Ctl.dispatch req) s).2.fabric = f') :
    (served ack req s).1.ok = false ∧ (served ack req s).2.fabric = f' := by
  obtain ⟨⟨out, hout, hok⟩, hfabric⟩ := h
  rw [served_eq, hout]
  exact ⟨hok, hfabric⟩

theorem served_load_refused (htype : req.type = .ctlLoad) (hack : ack.ok = false)
    {fence : AuthorityFence} {d : AdapterDescriptor} (hfence : decodeFence req.payload = .ok fence)
    (hauth : (s.fabric.checkFence fence).authorized = true)
    (hd : s.fabric.adapter fence.adapter = some d) :
    (served ack req s).1.ok = false ∧
      (served ack req s).2.fabric = (created s d fence).fabric := by
  have heval := Ctl.load_refused hack hfence hauth hd
  rw [← Ctl.dispatch_load htype] at heval
  exact served_of_eval heval

theorem served_deactivate_refused (htype : req.type = .ctlDeactivate) (hack : ack.ok = false)
    {id : AdapterId} (hid : mustParse req.text = .ok id) :
    (served ack req s).1.ok = false ∧
      (served ack req s).2.fabric = s.fabric.setLifecycle id .ready := by
  have heval := Ctl.eval_deactivate ack s hid
  rw [hack, ← Ctl.dispatch_deactivate htype] at heval
  exact served_of_eval heval

end Unchanged

/-- A refused request leaves the Fabric as it was exactly when it is none of those that the worker
refuses after, or before, the Fabric is written to. -/
theorem refused_unchanged_iff (ack req : Message) (s : Shared) :
    ((served ack req s).1.ok = false → Unchanged s.fabric (served ack req s).2.fabric) ↔
      Traceless ack req s := by
  constructor
  · intro h
    constructor
    · intro htype hack fence d hfence hauth hd
      obtain ⟨href, hfabric⟩ := served_load_refused htype hack hfence hauth hd
      have := h href
      rwa [hfabric, unchanged_created_iff] at this
    · intro htype hack id ar hid har
      obtain ⟨href, hfabric⟩ := served_deactivate_refused htype hack hid
      have := h href
      rw [hfabric, unchanged_setLifecycle_iff] at this
      exact this ar har
  · intro h href
    by_cases hload : req.type = .ctlLoad
    · by_cases hfails : ack.ok = false ∧ ∃ fence, decodeFence req.payload = .ok fence ∧
          (s.fabric.checkFence fence).authorized = true
      · obtain ⟨hack, fence, hfence, hauth⟩ := hfails
        obtain ⟨d, w, hc⟩ := Fabric.checkFence_authorized.mp hauth
        rw [(served_load_refused hload hack hfence hauth hc.adapter).2, unchanged_created_iff]
        exact h.load hload hack fence d hfence hauth hc.adapter
      · refine unchanged_of_clean ?_ href
        rw [Ctl.dispatch_load hload]
        refine Ctl.load_clean ?_
        by_cases hack : ack.ok = true
        · exact .inl hack
        · exact .inr fun fence hfence hauth =>
            hfails ⟨Bool.not_eq_true _ ▸ hack, fence, hfence, hauth⟩
    · by_cases hdeactivate : req.type = .ctlDeactivate
      · by_cases hfails : ack.ok = false ∧ ∃ id : AdapterId, mustParse req.text = .ok id
        · obtain ⟨hack, id, hid⟩ := hfails
          rw [(served_deactivate_refused hdeactivate hack hid).2, unchanged_setLifecycle_iff]
          exact fun ar har => h.deactivate hdeactivate hack id ar hid har
        · refine unchanged_of_clean ?_ href
          rw [Ctl.dispatch_deactivate hdeactivate]
          refine Ctl.deactivate_clean ?_
          by_cases hack : ack.ok = true
          · exact .inl hack
          · exact .inr fun id hid => hfails ⟨Bool.not_eq_true _ ▸ hack, id, hid⟩
      · exact unchanged_of_clean (Ctl.dispatch_clean hload hdeactivate) href

/-! ### A load that the worker refuses -/

def refusal : Message := { type := .wkError, text := ascii "worker disconnected" }

/-- The worker refuses to load the active adapter a second time, and its record is gone. -/
theorem refused_unchanged_counterexample :
    ∃ s m ack req, Reaches s m ∧ (served ack req s).1.ok = false ∧
      ¬ Unchanged s.fabric (served ack req s).2.fabric := by
  refine ⟨activeState, 3, refusal, loadRequest, reaches_active, by decide +kernel, fun h => ?_⟩
  have hbefore : (activeState.fabric.authority[sampleFence.adapter.str]?).map (·.active) =
      some true := by decide +kernel
  have hafter : ((served refusal loadRequest activeState).2.fabric.authority[
      sampleFence.adapter.str]?).map (·.active) = some false := by decide +kernel
  rw [h.authority, hbefore] at hafter
  cases hafter

end Coordinator

end AdapterFabric
