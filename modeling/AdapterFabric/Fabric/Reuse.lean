import AdapterFabric.Fabric.Currency
import AdapterFabric.Fabric.Lifecycle
import AdapterFabric.Fabric.Recovery
import AdapterFabric.Fabric.Residency

/-!
# AdapterFabric.Fabric.Reuse

What `reuse_safe` permits, and what is resident (`fabric.cpp`).

`reuse_safe` checks the fence against the registries, and then that the instance of the adapter is
ready. It does not compare the two, so that they agree has to follow from the registries.

* `reuseExact_iff`: in a state, reuse is permitted only for what is resident exactly when every
  connected worker is the worker of all loaded residencies, under their boot, and every loaded
  adapter is registered under the generation it was loaded with.
* `reuse_exact_iff`: so it is along a run exactly when no step takes the two apart.
-/

namespace AdapterFabric

namespace Fabric

/-- A fence can name the worker: it is registered, connected, and neither it nor its boot is nil. -/
structure Serves (f : Fabric) (id : WorkerId) (w : WorkerRecord) : Prop where
  worker : f.worker id = some w
  connected : w.connected = true
  id_some : id.isNil = false
  boot_some : w.boot.isNil = false

/-- The adapter has authority, and the residency of its instance is ready. -/
def Loaded (f : Fabric) (a : AdapterId) (r : ResidencyRecord) : Prop :=
  ∃ ar, f.authorityRecord a = some ar ∧ ar.hasAuthority = true ∧
    f.residency ar.instanceId = some r ∧ r.ready = true

/-- What is resident is what the registries say. -/
structure Agrees (d : AdapterDescriptor) (r : ResidencyRecord) (id : WorkerId) (w : WorkerRecord) :
    Prop where
  generation : r.adapterGeneration = d.generation
  worker : r.worker = id
  boot : r.boot = w.boot

/-- Reuse is permitted only for what is resident. -/
def ReuseExact (f : Fabric) : Prop :=
  ∀ F : AuthorityFence, (f.reuseSafe F).authorized = true →
    ∃ ar r, f.authorityRecord F.adapter = some ar ∧ f.residency ar.instanceId = some r ∧
      r.ready = true ∧ r.worker = F.worker ∧ r.boot = F.boot ∧
      r.adapterGeneration = F.adapterGeneration

/-- Every worker that can be named is the one where all loaded adapters are. -/
def Sole (f : Fabric) : Prop :=
  ∀ a d r id w, a.isNil = false → f.adapter a = some d → f.Loaded a r → f.Serves id w →
    Agrees d r id w

section State

variable {f : Fabric}

theorem reuseSafe_iff {F : AuthorityFence} : (f.reuseSafe F).authorized = true ↔
    (f.checkFence F).authorized = true ∧ ∃ r, f.Loaded F.adapter r := by
  unfold reuseSafe Loaded
  by_cases hauth : (f.checkFence F).authorized = true
  · rw [if_neg (not_not.mpr hauth)]
    cases har : f.authorityRecord F.adapter with
    | none => simp [AuthorityCheck.authorized_mk]
    | some ar =>
      by_cases hheld : ar.hasAuthority = true
      · by_cases hready : ∃ r ∈ f.residencies[ar.instanceId.str]?, r.ready = true
        · simp only [hheld, not_true, if_false, if_pos hready, AuthorityCheck.authorized_mk,
            decide_true, true_iff]
          obtain ⟨r, hr, hr'⟩ := hready
          exact ⟨hauth, r, ar, rfl, hheld, hr, hr'⟩
        · simp only [hheld, not_true, if_false, if_neg hready, AuthorityCheck.authorized_mk]
          refine iff_of_false (by simp) ?_
          rintro ⟨_, r, ar', har', _, hr, hr'⟩
          obtain rfl := Option.some.inj har'
          exact hready ⟨r, hr, hr'⟩
      · simp only [if_pos hheld, AuthorityCheck.authorized_mk]
        refine iff_of_false (by simp) ?_
        rintro ⟨_, r, ar', har', hheld', _⟩
        obtain rfl := Option.some.inj har'
        exact hheld hheld'
  · rw [if_pos hauth]
    exact iff_of_false hauth fun h => hauth h.1

/-- A fence for the adapter on the worker that is current in every factor. -/
def currentFence (f : Fabric) (a : AdapterId) (d : AdapterDescriptor) (id : WorkerId)
    (w : WorkerRecord) : AuthorityFence where
  adapter := a
  epoch := f.epoch
  adapterGeneration := d.generation
  baseModelRevision := d.baseModelRevision
  worker := id
  boot := w.boot
  attempt := (f.currentAttempt[a.str]?).getD ⟨.ofBytes [1]⟩
  residencyGeneration := f.expectedResidencyGeneration a
  compositionGeneration := f.expectedCompositionGeneration a
  artifactGeneration := f.expectedArtifactGeneration a

theorem currentFence_authorized (hattempts : f.AttemptsSome) {a : AdapterId}
    {d : AdapterDescriptor} {id : WorkerId} {w : WorkerRecord} (ha : a.isNil = false)
    (hd : f.adapter a = some d) (hw : f.Serves id w) :
    (f.checkFence (f.currentFence a d id w)).authorized = true := by
  have hattempt : ((f.currentAttempt[a.str]?).getD ⟨.ofBytes [1]⟩).isNil = false := by
    cases h : f.currentAttempt[a.str]? with
    | none => decide
    | some attempt => simpa using hattempts _ _ h
  refine checkFence_authorized.mpr ⟨d, w, {
    adapter := hd
    adapter_some := by simp [currentFence, ha]
    epoch := rfl
    adapterGeneration := rfl
    baseModelRevision := rfl
    worker := hw.worker
    connected := hw.connected
    complete := ?_
    boot := rfl
    attempt := ?_
    residencyGeneration := rfl
    compositionGeneration := rfl
    artifactGeneration := rfl }⟩
  · simp [currentFence, hw.id_some, hw.boot_some, hattempt]
  · intro attempt h
    simp only [currentFence] at h ⊢
    rw [h, Option.getD_some]

/-- In a state, reuse is permitted only for what is resident exactly when every worker that can be
named is the one where all loaded adapters are. -/
theorem reuseExact_iff (hattempts : f.AttemptsSome) : ReuseExact f ↔ Sole f := by
  constructor
  · intro hexact a d r id w ha hd hloaded hw
    obtain ⟨ar, r', har, hr', _, hworker, hboot, hgen⟩ := hexact (f.currentFence a d id w)
      (reuseSafe_iff.mpr ⟨currentFence_authorized hattempts ha hd hw, r, hloaded⟩)
    obtain ⟨ar', har', _, hr, _⟩ := hloaded
    obtain rfl : ar = ar' := Option.some.inj (har.symm.trans har')
    obtain rfl : r = r' := Option.some.inj (hr.symm.trans hr')
    exact ⟨hgen, hworker, hboot⟩
  · intro hsole F hF
    obtain ⟨hauth, r, hloaded⟩ := reuseSafe_iff.mp hF
    obtain ⟨d, w, hc⟩ := checkFence_authorized.mp hauth
    have hnil := not_or.mp hc.complete
    have hserves : f.Serves F.worker w := {
      worker := hc.worker
      connected := hc.connected
      id_some := by simpa using hnil.1
      boot_some := by
        rw [← hc.boot]
        simpa using (not_or.mp hnil.2).1 }
    have hagrees := hsole F.adapter d r F.worker w (by simpa using hc.adapter_some) hc.adapter
      hloaded hserves
    obtain ⟨ar, har, _, hr, hready⟩ := hloaded
    exact ⟨ar, r, har, hr, hready, hagrees.worker, hagrees.boot.trans hc.boot.symm,
      hagrees.generation.trans hc.adapterGeneration.symm⟩

end State

/-! ## What an operation can do to the three tables -/

/-- The residencies are of one load on one worker. -/
structure SamePlace (r r' : ResidencyRecord) : Prop where
  generation : r'.adapterGeneration = r.adapterGeneration
  worker : r'.worker = r.worker
  boot : r'.boot = r.boot

theorem SamePlace.agrees {r r' : ResidencyRecord} {d : AdapterDescriptor} {id : WorkerId}
    {w : WorkerRecord} (h : SamePlace r r') : Agrees d r' id w ↔ Agrees d r id w := by
  constructor
  · rintro ⟨hgen, hworker, hboot⟩
    exact ⟨h.generation ▸ hgen, h.worker ▸ hworker, h.boot ▸ hboot⟩
  · rintro ⟨hgen, hworker, hboot⟩
    exact ⟨h.generation.trans hgen, h.worker.trans hworker, h.boot.trans hboot⟩

section Step

variable {f : Fabric} {op : Op} {a : AdapterId} {d : AdapterDescriptor} {id : WorkerId}
  {w : WorkerRecord} {r' : ResidencyRecord}

theorem adapter_cases (h : (op.apply f).adapter a = some d) :
    f.adapter a = some d ∨
    (∃ d₀, op = .registerAdapter d₀ ∧ Registrable d₀ ∧ d₀.id = a ∧
      d = { d₀ with generation := f.nextAdapterGen }) ∨
    ∃ s, op = .recover s := by
  have other (hreg : ∀ d₀, op ≠ .registerAdapter d₀) (hepoch : op ≠ .advanceEpoch)
      (hrec : op.isRecover = false) : f.adapter a = some d := by
    rwa [adapter, (registry_frame hreg hepoch hrec f).2.2] at h
  cases op with
  | registerAdapter d₀ =>
    rcases registerAdapter_cases f d₀ with ⟨_, e, he⟩ | ⟨hd₀, he⟩
    · simp only [Op.apply, he] at h
      exact .inl h
    · simp only [Op.apply, he] at h
      rcases Table.of_insert h with ⟨hkey, rfl⟩ | h
      · exact .inr (.inl ⟨d₀, rfl, hd₀, Id.str_inj hkey, rfl⟩)
      · exact .inl h
  | recover s => exact .inr (.inr ⟨s, rfl⟩)
  | advanceEpoch => exact .inl h
  | _ => exact .inl (other (by simp) (by simp) rfl)

theorem serves_cases (h : (op.apply f).Serves id w) :
    f.Serves id w ∨ (op = .registerWorker w ∧ w.id = id) ∨ ∃ s, op = .recover s := by
  obtain ⟨hworker, hconnected, hid, hboot⟩ := h
  have other (hreg : ∀ rec, op ≠ .registerWorker rec) (hdown : ∀ id', op ≠ .onWorkerDown id')
      (hrec : op.isRecover = false) : f.Serves id w :=
    ⟨by rwa [worker, workers_frame hreg hdown hrec f] at hworker, hconnected, hid, hboot⟩
  cases op with
  | registerWorker rec =>
    rcases Table.of_insert hworker with ⟨hkey, rfl⟩ | hworker
    · exact .inr (.inl ⟨rfl, Id.str_inj hkey⟩)
    · exact .inl ⟨hworker, hconnected, hid, hboot⟩
  | recover s => exact .inr (.inr ⟨s, rfl⟩)
  | onWorkerDown id' =>
    rcases Table.of_modify hworker with ⟨_, w₀, _, rfl⟩ | hworker
    · cases hconnected
    · exact .inl ⟨hworker, hconnected, hid, hboot⟩
  | _ => exact .inl (other (by simp) (by simp) rfl)

theorem ready_cases {inst : AdapterInstanceId} (h : (op.apply f).residency inst = some r')
    (hready : r'.ready = true) :
    ∃ r, f.residency inst = some r ∧ SamePlace r r' ∧
      (r.ready = true ∧ (r' = r ∨ op.isQuiet = true) ∨ ∃ bytes, op = .markReady inst bytes) := by
  rcases residency_cases h with ⟨_, _, _, _, _, _, _, _, _, _, rfl⟩ | ⟨r, hr, hcases⟩
  · cases hready
  refine ⟨r, hr, ?_⟩
  rcases hcases with ⟨rfl, rfl⟩ | ⟨rfl, rfl⟩ | ⟨bytes, rfl, rfl⟩ | ⟨_, _, rfl | ⟨_, rfl⟩⟩
  · exact ⟨⟨rfl, rfl, rfl⟩, .inl ⟨hready, .inr rfl⟩⟩
  · exact ⟨⟨rfl, rfl, rfl⟩, .inl ⟨hready, .inr rfl⟩⟩
  · exact ⟨⟨rfl, rfl, rfl⟩, .inr ⟨bytes, rfl⟩⟩
  · exact ⟨⟨rfl, rfl, rfl⟩, .inl ⟨hready, .inl rfl⟩⟩
  · cases hready

theorem loaded_cases (h : (op.apply f).Loaded a r') :
    (∃ r, f.Loaded a r ∧ SamePlace r r') ∨
    (∃ fence ar, op = .bindAuthority a fence ∧ (f.checkFence fence).authorized = true ∧
      (∀ held, f.activeFence = some held → held.adapter = a) ∧ f.authorityRecord a = some ar ∧
      f.residency ar.instanceId = some r' ∧ r'.ready = true) ∨
    ∃ bytes ar r, op = .markReady ar.instanceId bytes ∧ f.authorityRecord a = some ar ∧
      ar.hasAuthority = true ∧ f.residency ar.instanceId = some r ∧ SamePlace r r' := by
  obtain ⟨ar', har', hheld', hr', hready'⟩ := h
  obtain ⟨r, hr, hplace, hcases⟩ := ready_cases hr' hready'
  -- the record is not fresh, for it has authority
  rcases record_cases har' with ⟨_, _, _, _, _, _, _, _, _, _, rfl⟩ | ⟨ar, har, hrecord⟩
  · cases hheld'
  rcases hrecord with ⟨id, fence, rfl, hkey, hauth, hfree, rfl⟩ | hrecord
  · obtain rfl := Id.str_inj hkey
    rcases hcases with ⟨_, rfl | hquiet⟩ | ⟨_, hop⟩
    · exact .inr (.inl ⟨fence, ar, rfl, hauth, hfree, har, hr, hready'⟩)
    · cases hquiet
    · cases hop
  have hsame : ar.hasAuthority = true ∧ ar.instanceId = ar'.instanceId := by
    rcases hrecord with rfl | rfl | ⟨_, _, _, _, rfl⟩
    · exact ⟨hheld', rfl⟩
    · cases hheld'
    · exact ⟨hheld', rfl⟩
  rw [← hsame.2] at hr hcases
  rcases hcases with ⟨hready, _⟩ | ⟨bytes, hop⟩
  · exact .inl ⟨r, ⟨ar, har, hsame.1, hr, hready⟩, hplace⟩
  · exact .inr (.inr ⟨bytes, ar, r, hop, har, hsame.1, hr, hplace⟩)

end Step

/-! ## Which steps keep reuse exact -/

/-- The operation makes loaded what the registries have where it is, and registers nothing that
disagrees with what is loaded. -/
def Op.KeepsExact (f : Fabric) : Op → Prop
  | registerAdapter d =>
    Registrable d → ∀ r id w, f.Loaded d.id r → f.Serves id w →
      Agrees { d with generation := f.nextAdapterGen } r id w
  | registerWorker rec =>
    rec.connected = true → rec.id.isNil = false → rec.boot.isNil = false →
      ∀ a d r, a.isNil = false → f.adapter a = some d → f.Loaded a r → Agrees d r rec.id rec
  | bindAuthority a fence =>
    (f.checkFence fence).authorized = true →
      (∀ held, f.activeFence = some held → held.adapter = a) →
      ∀ ar d r id w, f.authorityRecord a = some ar → a.isNil = false → f.adapter a = some d →
        f.residency ar.instanceId = some r → r.ready = true → f.Serves id w → Agrees d r id w
  | markReady inst _ =>
    ∀ a ar d r id w, f.authorityRecord a = some ar → ar.hasAuthority = true →
      ar.instanceId = inst → a.isNil = false → f.adapter a = some d →
      f.residency inst = some r → f.Serves id w → Agrees d r id w
  | recover s =>
    ∀ a d r id w, a.isNil = false → (f.recover s).adapter a = some d → f.Loaded a r →
      (f.recover s).Serves id w → Agrees d r id w
  | _ => True

section Exact

variable {f : Fabric} {op : Op}

theorem keepsExact_of_sole (h : Sole (op.apply f)) : op.KeepsExact f := by
  cases op with
  | registerAdapter d =>
    intro hd r id w hloaded hserves
    have he : (Op.registerAdapter d).apply f = { f with
        nextAdapterGen := f.nextAdapterGen.next
        adapters := f.adapters.insert d.id.str { d with generation := f.nextAdapterGen } } := by
      rcases registerAdapter_cases f d with ⟨hno, _⟩ | ⟨_, he⟩
      · exact absurd hd hno
      · simp only [Op.apply, he]
    rw [he] at h
    refine h d.id _ r id w (by simpa using hd.1) ?_ hloaded
      ⟨hserves.1, hserves.2, hserves.3, hserves.4⟩
    exact (Table.get_insert _ _ _ _).trans (if_pos rfl)
  | registerWorker rec =>
    intro hconnected hid hboot a d r ha hd hloaded
    refine h a d r rec.id rec ha hd hloaded ⟨?_, hconnected, hid, hboot⟩
    exact (Table.get_insert _ _ _ _).trans (if_pos rfl)
  | bindAuthority a fence =>
    intro hauth hfree ar d r id w har ha hd hr hready hserves
    have hgranted := bindAuthority_grants hauth hfree har
    simp only [Op.apply] at h
    obtain ⟨_, _, _, he⟩ := bindAuthority_frame f a fence
    rw [he] at h hgranted
    exact h a d r id w ha hd ⟨granted ar fence, hgranted, rfl, hr, hready⟩
      ⟨hserves.1, hserves.2, hserves.3, hserves.4⟩
  | markReady inst bytes =>
    intro a ar d r id w har hheld hinst ha hd hr hserves
    have hplace : SamePlace r { r with ready := true, bytes } := ⟨rfl, rfl, rfl⟩
    rw [← hplace.agrees]
    refine h a d _ id w ha hd ⟨ar, har, hheld, ?_, rfl⟩ ⟨hserves.1, hserves.2, hserves.3, hserves.4⟩
    show (f.changeResidency inst fun r => { r with ready := true, bytes }).residency _ = _
    rw [residency_changeResidency, if_pos hinst.symm, hinst, hr]
    rfl
  | recover s =>
    intro a d r id w ha hd hloaded hserves
    exact h a d r id w ha hd hloaded hserves
  | _ => trivial

theorem Sole.apply (h : Sole f) (hop : op.KeepsExact f) : Sole (op.apply f) := by
  intro a d r' id w ha hd hloaded hserves
  rcases loaded_cases hloaded with ⟨r, hbefore, hplace⟩ |
    ⟨fence, ar, rfl, hauth, hfree, har, hr, hready⟩ | ⟨bytes, ar, r, rfl, har, hheld, hr, hplace⟩
  · -- loaded before: only the registries may have changed
    rw [hplace.agrees]
    rcases adapter_cases hd with hd₁ | ⟨d₀, rfl, hd₀, rfl, rfl⟩ | ⟨s, rfl⟩
    · rcases serves_cases hserves with hserves₁ | ⟨rfl, rfl⟩ | ⟨s, rfl⟩
      · exact h a d r id w ha hd₁ hbefore hserves₁
      · exact hop hserves.connected hserves.id_some hserves.boot_some a d r ha hd₁ hbefore
      · exact hop a d r id w ha hd hbefore hserves
    · rcases serves_cases hserves with hserves₁ | ⟨hop', _⟩ | ⟨s, hop'⟩
      · exact hop hd₀ r id w hbefore hserves₁
      · cases hop'
      · cases hop'
    · exact hop a d r id w ha hd hbefore hserves
  · rcases adapter_cases hd with hd₁ | ⟨_, hop', _⟩ | ⟨_, hop'⟩
    · rcases serves_cases hserves with hserves₁ | ⟨hop', _⟩ | ⟨_, hop'⟩
      · exact hop hauth hfree ar d r' id w har ha hd₁ hr hready hserves₁
      · cases hop'
      · cases hop'
    · cases hop'
    · cases hop'
  · rw [hplace.agrees]
    rcases adapter_cases hd with hd₁ | ⟨_, hop', _⟩ | ⟨_, hop'⟩
    · rcases serves_cases hserves with hserves₁ | ⟨hop', _⟩ | ⟨_, hop'⟩
      · exact hop a ar d r id w har hheld rfl ha hd₁ hr hserves₁
      · cases hop'
      · cases hop'
    · cases hop'
    · cases hop'

end Exact

/-- Reuse is permitted only for what is resident, in every state of a run, exactly when no step of
it takes the registries and what is loaded apart. -/
theorem reuse_exact_iff {f₀ : Fabric} {ops : List Op} (hfresh : Fresh f₀) :
    (∀ pre, pre <+: ops → ReuseExact (run pre f₀)) ↔
      ∀ pre op, pre ++ [op] <+: ops → op.KeepsExact (run pre f₀) := by
  have hattempts : f₀.AttemptsSome := run_attemptsSome hfresh []
  have hsole : Sole f₀ := by
    rintro a d r id w _ _ ⟨ar, har, _⟩ _
    rw [authorityRecord, hfresh.no_record] at har
    cases har
  refine Run.exec_always_iff (I := AttemptsSome) hattempts ((reuseExact_iff hattempts).mpr hsole)
    (fun op _ _ hI => attemptsSome_step op hI) fun op _ f hI hP => ?_
  rw [reuseExact_iff (attemptsSome_step op hI)]
  exact ⟨keepsExact_of_sole, ((reuseExact_iff hI).mp hP).apply⟩

/-- An instance is created, bound, and marked ready. -/
def loadedOps : List Op := sampleOps ++ [.markReady (drawn .instanceInit) 1]

theorem reuse_exact_iff_sample : ReuseExact (run loadedOps .default) := by
  refine (reuse_exact_iff .default).mpr ?_ _ (List.prefix_refl _)
  have hnone : (run (loadedOps.take 1) .default).authority.keys = [] := by decide +kernel
  have hrecord : (run (loadedOps.take 3) .default).authority[sampleAdapter.id.str]?.map
      (·.instanceId) = some (drawn .instanceInit) := by decide +kernel
  have hready : ((run (loadedOps.take 3) .default).residency (drawn .instanceInit)).map (·.ready) =
      some false := by decide +kernel
  have hadapters : (run (loadedOps.take 4) .default).adapters.keys = [sampleAdapter.id.str] := by
    decide +kernel
  have hworkers : (run (loadedOps.take 4) .default).workers.keys = [sampleWorker.id.str] := by
    decide +kernel
  have hadapter : (run (loadedOps.take 4) .default).adapters[sampleAdapter.id.str]?.map
      (·.generation) = some ⟨1⟩ := by decide +kernel
  have hworker : (run (loadedOps.take 4) .default).workers[sampleWorker.id.str]?.map (·.boot) =
      some sampleWorker.boot := by decide +kernel
  have hplace : ((run (loadedOps.take 4) .default).residency (drawn .instanceInit)).map
      (fun r => (r.adapterGeneration, r.worker, r.boot)) =
      some (⟨1⟩, sampleWorker.id, sampleWorker.boot) := by decide +kernel
  have get {α β : Type} {o : Option α} {x : α} {g : α → β} {y : β} (hx : o = some x)
      (hy : o.map g = some y) : g x = y := by
    rw [hx] at hy
    exact Option.some.inj hy
  refine Run.steps_cons_iff.mpr ⟨?_, Run.steps_cons_iff.mpr ⟨?_, Run.steps_cons_iff.mpr ⟨trivial,
    Run.steps_cons_iff.mpr ⟨?_, Run.steps_cons_iff.mpr ⟨?_, by simp⟩⟩⟩⟩⟩
  · rintro - r id w ⟨ar, har, _⟩
    have har : (∅ : StrMap AdapterAuthorityRecord)[sampleAdapter.id.str]? = some ar := har
    rw [Std.ExtTreeMap.getElem?_empty] at har
    cases har
  · rintro - - - a d r - - ⟨ar, har, _⟩
    have hmem : a.str ∈ (run (loadedOps.take 1) .default).authority.keys := Table.mem_keys har
    rw [hnone] at hmem
    cases hmem
  · intro _ _ ar d r id w har _ _ hr hready'
    rw [get har hrecord] at hr
    exact absurd (get hr hready) (by rw [hready']; decide)
  · intro a ar d r id w _ _ _ _ hd hr hw
    have ha : a.str ∈ (run (loadedOps.take 4) .default).adapters.keys := Table.mem_keys hd
    rw [hadapters, List.mem_singleton] at ha
    obtain rfl := Id.str_inj ha
    have hid : id.str ∈ (run (loadedOps.take 4) .default).workers.keys := Table.mem_keys hw.worker
    rw [hworkers, List.mem_singleton] at hid
    obtain rfl := Id.str_inj hid
    obtain ⟨hgen, hplace⟩ := Prod.ext_iff.mp (get hr hplace)
    obtain ⟨hw', hboot⟩ := Prod.ext_iff.mp hplace
    exact ⟨hgen.trans (get hd hadapter).symm, hw', hboot.trans (get hw.worker hworker).symm⟩

/-- Registered once more, the adapter is reused under a generation that is not resident. -/
theorem reuse_counterexample :
    ¬ ∀ f₀, Fresh f₀ → ∀ ops : List Op, ReuseExact (run ops f₀) := by
  intro h
  obtain ⟨ar, r, har, hr, _, _, _, hgen⟩ := h .default .default
    (loadedOps ++ [.registerAdapter sampleAdapter]) { sampleFence with adapterGeneration := ⟨2⟩ }
    (by decide +kernel)
  obtain ⟨ar', har', hinst⟩ := Option.map_eq_some_iff.mp (show
    ((run (loadedOps ++ [.registerAdapter sampleAdapter]) .default).authorityRecord
      sampleAdapter.id).map (·.instanceId) = some (drawn .instanceInit) by decide +kernel)
  obtain rfl : ar = ar' := Option.some.inj (har.symm.trans har')
  rw [hinst] at hr
  obtain ⟨r', hr', hgen'⟩ := Option.map_eq_some_iff.mp (show
    ((run (loadedOps ++ [.registerAdapter sampleAdapter]) .default).residency
      (drawn .instanceInit)).map (·.adapterGeneration) = some ⟨1⟩ by decide +kernel)
  obtain rfl : r = r' := Option.some.inj (hr.symm.trans hr')
  rw [hgen'] at hgen
  exact absurd hgen (by decide)

end Fabric

end AdapterFabric
