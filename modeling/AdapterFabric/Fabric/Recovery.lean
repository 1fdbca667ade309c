import AdapterFabric.Fabric.Exclusive

/-!
# AdapterFabric.Fabric.Recovery

What `recover` does to a Fabric.

* `recover_permutes`: an accepted snapshot comes back whole, in the order of its id texts.
* `recover_authority_iff`: recovery leaves no authority behind exactly when the Fabric had none and
  the snapshot carries no worker that is still marked as connected.
-/

namespace AdapterFabric

open Std

namespace Fabric

/-! ## Snapshots -/

/-- Every table that is saved holds its values under their own ids. -/
structure TablesKeyed (f : Fabric) : Prop where
  adapters : Table.Keyed (fun d : AdapterDescriptor => d.id.str) f.adapters
  compositions : Table.Keyed (fun c : Composition => c.id.str) f.compositions
  workers : Table.Keyed (fun w : WorkerRecord => w.id.str) f.workers

theorem recover_tablesKeyed (f : Fabric) (s : FabricSnapshot) : (f.recover s).TablesKeyed :=
  ⟨Table.keyed_insertAll _, Table.keyed_insertAll _, Table.keyed_insertAll _⟩

/-- Any Fabric that recovers the snapshot of `f` has that snapshot. -/
theorem TablesKeyed.recover_snapshot {f : Fabric} (h : f.TablesKeyed) (g : Fabric) :
    (g.recover f.snapshot).snapshot = f.snapshot := by
  have hadapters := Table.insertAll_values h.adapters
  have hcompositions := Table.insertAll_values h.compositions
  have hworkers := Table.insertAll_values h.workers
  unfold Table.insertAll at hadapters hcompositions hworkers
  simp only [snapshot, recover, hadapters, hcompositions, hworkers]

/-- `s'` is `s` with its lists in the order of the id texts. -/
structure Sorts (s' s : FabricSnapshot) : Prop where
  epoch : s'.epoch = s.epoch
  nextAdapterGeneration : s'.nextAdapterGeneration = s.nextAdapterGeneration
  nextCompositionGeneration : s'.nextCompositionGeneration = s.nextCompositionGeneration
  adapters : s'.adapters.Perm s.adapters
  compositions : s'.compositions.Perm s.compositions
  workers : s'.workers.Perm s.workers
  adapters_sorted : s'.adapters.Pairwise fun a b => compare a.id.str b.id.str = .lt
  compositions_sorted : s'.compositions.Pairwise fun a b => compare a.id.str b.id.str = .lt
  workers_sorted : s'.workers.Pairwise fun a b => compare a.id.str b.id.str = .lt

theorem recover_sorts {s : FabricSnapshot} (h : s.WellFormed) (f : Fabric) :
    Sorts (f.recover s).snapshot s := by
  have hkeyed := recover_tablesKeyed f s
  exact {
    epoch := rfl
    nextAdapterGeneration := rfl
    nextCompositionGeneration := rfl
    adapters := Table.perm_values_insertAll (nodup_str_iff.mpr h.adapters_nodup)
    compositions := Table.perm_values_insertAll (nodup_str_iff.mpr h.compositions_nodup)
    workers := Table.perm_values_insertAll (nodup_str_iff.mpr h.workers_nodup)
    adapters_sorted := hkeyed.adapters.values_pairwise
    compositions_sorted := hkeyed.compositions.values_pairwise
    workers_sorted := hkeyed.workers.values_pairwise }

/-- Whatever a Fabric held before, recovering an accepted snapshot makes its snapshot the accepted
one up to order, and a second recovery changes nothing. -/
theorem recover_permutes {b : Bytes} {s : FabricSnapshot} (h : deserializeSnapshot b = .ok s)
    (f : Fabric) :
    Sorts (f.recover s).snapshot s ∧
      ((f.recover s).recover (f.recover s).snapshot).snapshot = (f.recover s).snapshot :=
  ⟨recover_sorts (wellFormed_of_deserialize h) f, (recover_tablesKeyed f s).recover_snapshot _⟩

theorem recover_permutes_sample :
    Sorts ((run sampleOps .default).recover sampleSnapshot).snapshot sampleSnapshot :=
  (recover_permutes (deserialize_serialize sampleSnapshot_wellFormed) _).1

/-! ## Authority -/

/-- No record holds authority, and no fence passes a check. -/
structure NoAuthority (f : Fabric) : Prop where
  records : ∀ (k : Bytes) (ar : AdapterAuthorityRecord), f.authority[k]? = some ar →
    ar.active = false ∧ ar.hasAuthority = false
  checkFence : ∀ F : AuthorityFence, (f.checkFence F).authorized = false
  reuseSafe : ∀ F : AuthorityFence, (f.reuseSafe F).authorized = false

/-- A fence may name the worker as it stands. -/
def Live (w : WorkerRecord) : Prop :=
  w.connected = true ∧ ¬ w.id.isNil = true ∧ ¬ w.boot.isNil = true

/-- No record holds authority, and no worker is there to give it to. -/
structure Dormant (f : Fabric) : Prop where
  records : ∀ (k : Bytes) (ar : AdapterAuthorityRecord), f.authority[k]? = some ar →
    ar.active = false ∧ ar.hasAuthority = false
  workers : ∀ (k : Bytes) (w : WorkerRecord), f.workers[k]? = some w → w.id.str = k ∧ ¬ Live w

section Dormant

variable {f : Fabric}

theorem Dormant.not_authorized (h : f.Dormant) (F : AuthorityFence) :
    (f.checkFence F).authorized = false := by
  rw [← Bool.not_eq_true, checkFence_authorized]
  rintro ⟨d, w, hc⟩
  obtain ⟨hkey, hdead⟩ := h.workers _ w hc.worker
  have hid : w.id = F.worker := Id.str_inj hkey
  refine hdead ⟨hc.connected, fun hn => hc.complete (.inl ?_),
    fun hn => hc.complete (.inr (.inl ?_))⟩
  · rwa [← hid]
  · rwa [hc.boot]

theorem reuseSafe_authorized {F : AuthorityFence} (h : (f.reuseSafe F).authorized = true) :
    (f.checkFence F).authorized = true := by
  unfold reuseSafe at h
  by_contra hne
  rw [if_pos hne] at h
  exact hne h

theorem Dormant.noAuthority (h : f.Dormant) : f.NoAuthority where
  records := h.records
  checkFence := h.not_authorized
  reuseSafe F := by
    rw [← Bool.not_eq_true]
    intro hauth
    have hcheck := reuseSafe_authorized hauth
    rw [h.not_authorized] at hcheck
    cases hcheck

theorem createInstance_authority {id : AdapterId} {worker : WorkerId} {boot : WorkerBootId}
    {device : DeviceId} {bytes : UInt64} {rng : Rng} {k : Bytes} {ar : AdapterAuthorityRecord}
    (h : (f.createInstance id worker boot device bytes rng).2.1.authority[k]? = some ar) :
    f.authority[k]? = some ar ∨ (ar.active = false ∧ ar.hasAuthority = false) := by
  unfold createInstance at h
  cases hd : f.adapter id with
  | none =>
    rw [hd] at h
    exact .inl h
  | some d =>
    rw [hd] at h
    rcases Table.of_insert h with ⟨_, rfl⟩ | h
    · exact .inr ⟨rfl, rfl⟩
    · exact .inl h

theorem Dormant.of_frame {f' : Fabric} (h : f.Dormant) (hauthority : f'.authority = f.authority)
    (hworkers : f'.workers = f.workers) : f'.Dormant where
  records k ar har := h.records k ar (by rwa [← hauthority])
  workers k w hw := h.workers k w (by rwa [← hworkers])

theorem Dormant.modify (h : f.Dormant) {g : AdapterAuthorityRecord → AdapterAuthorityRecord}
    (hg : ∀ ar, ar.active = false ∧ ar.hasAuthority = false →
      (g ar).active = false ∧ (g ar).hasAuthority = false)
    {k k' : Bytes} {ar : AdapterAuthorityRecord} (har : (f.authority.modify k g)[k']? = some ar) :
    ar.active = false ∧ ar.hasAuthority = false := by
  rcases Table.of_modify har with ⟨rfl, ar₀, h₀, rfl⟩ | har
  · exact hg ar₀ (h.records k ar₀ h₀)
  · exact h.records k' ar har

theorem Dormant.revokeWhere (h : f.Dormant) (lost : AuthorityFence → Bool) {k : Bytes}
    {ar : AdapterAuthorityRecord} (har : (f.revokeWhere lost).authority[k]? = some ar) :
    ar.active = false ∧ ar.hasAuthority = false := by
  rw [revokeWhere_authority] at har
  obtain ⟨ar₀, h₀, rfl⟩ := Option.map_eq_some_iff.mp har
  by_cases hlost : lost ar₀.fence = true
  · rw [if_pos hlost]
    exact ⟨rfl, rfl⟩
  · rw [if_neg hlost]
    exact h.records k ar₀ h₀

/-- Only a registration or a recovery can bring a worker to life. -/
theorem dormant_step {op : Op} (hreg : ∀ rec, op ≠ .registerWorker rec)
    (hrec : op.isRecover = false) (h : f.Dormant) : (op.apply f).Dormant := by
  by_cases hquiet : op.isQuiet = true
  · have hq := Op.quiet_apply hquiet f
    exact h.of_frame hq.authority hq.workers
  cases op with
  | registerAdapter d =>
    obtain ⟨_, _, he⟩ := registerAdapter_frame f d
    refine h.of_frame ?_ ?_ <;> simp only [Op.apply, he]
  | registerWorker rec => exact absurd rfl (hreg rec)
  | createInstance adapter worker boot device bytes rng =>
    refine ⟨fun k ar har => ?_, ?_⟩
    · rcases createInstance_authority har with har | hinactive
      · exact h.records k ar har
      · exact hinactive
    · obtain ⟨_, _, he⟩ := createInstance_frame f adapter worker boot device bytes rng
      simp only [Op.apply, he]
      exact h.workers
  | bindAuthority id fence =>
    rcases bindAuthority_cases f id fence with he | ⟨ar, hauth, _⟩
    · simp only [Op.apply, he]
      exact h
    · rw [h.not_authorized] at hauth
      cases hauth
  | invalidate id trigger reason =>
    refine ⟨fun k ar har => ?_, h.workers⟩
    have har : (f.authority.modify id.str revoked)[k]? = some ar := har
    exact h.modify (fun _ _ => ⟨rfl, rfl⟩) har
  | advanceEpoch => exact h.of_frame rfl rfl
  | onWorkerDown id =>
    refine ⟨fun k ar har => ?_, fun k w hw => ?_⟩
    · have har : (f.revokeWhere fun fence => fence.worker = id).authority[k]? = some ar := har
      exact h.revokeWhere _ har
    · have hw : (f.workers.modify id.str fun w => { w with connected := false })[k]? = some w := hw
      rcases Table.of_modify hw with ⟨rfl, w₀, h₀, rfl⟩ | hw
      · exact ⟨(h.workers _ w₀ h₀).1, fun hlive => Bool.noConfusion hlive.1⟩
      · exact h.workers k w hw
  | onWorkerRestart id boot =>
    refine ⟨fun k ar har => ?_, h.workers⟩
    have har : (f.revokeWhere fun fence => fence.worker = id ∧ fence.boot ≠ boot).authority[k]? =
      some ar := har
    exact h.revokeWhere _ har
  | recover s => cases hrec
  | setLifecycle id s =>
    refine ⟨fun k ar har => ?_, h.workers⟩
    have har : (f.authority.modify id.str fun ar => { ar with lifecycle := s })[k]? = some ar := har
    exact h.modify (g := fun ar => { ar with lifecycle := s }) (fun _ hidle => hidle) har
  | _ => exact absurd rfl hquiet

end Dormant

/-! ### Attempts are never nil -/

def AttemptsSome (f : Fabric) : Prop :=
  ∀ (k : Bytes) (a : AttemptId), f.currentAttempt[k]? = some a → ¬ a.isNil = true

theorem attemptsSome_step {f : Fabric} (op : Op) (h : f.AttemptsSome) :
    (op.apply f).AttemptsSome := by
  intro k a ha
  rcases attempt_cases ha with ha | ⟨_, F, _, hauth, rfl⟩
  · exact h k a ha
  · obtain ⟨d, w, hc⟩ := checkFence_authorized.mp hauth
    exact fun hn => hc.complete (.inr (.inr hn))

theorem run_attemptsSome {f₀ : Fabric} (hfresh : Fresh f₀) (ops : List Op) :
    (run ops f₀).AttemptsSome := by
  refine Run.exec_preserves (P := AttemptsSome) (fun op _ _ => attemptsSome_step op) ?_
  intro k a ha
  have hnone : f₀.currentAttempt[k]? = none := by
    cases hfresh <;> exact ExtTreeMap.getElem?_empty
  rw [hnone] at ha
  cases ha

/-! ### A worker that is marked as connected can be given authority -/

/-- A fence for the adapter `d`, registered last, on the worker `w`. -/
def fenceFor (f : Fabric) (d : AdapterDescriptor) (w : WorkerRecord)
    (generation : AdapterGeneration) : AuthorityFence where
  adapter := d.id
  adapterGeneration := generation
  baseModelRevision := d.baseModelRevision
  epoch := f.epoch
  worker := w.id
  boot := w.boot
  attempt := f.currentAttempt[d.id.str]?.getD ⟨.ofBytes [6]⟩
  residencyGeneration := f.expectedResidencyGeneration d.id
  compositionGeneration := f.expectedCompositionGeneration d.id
  artifactGeneration := f.expectedArtifactGeneration d.id

theorem fenceFor_authorized {f : Fabric} {d : AdapterDescriptor} {w : WorkerRecord}
    (hd : Registrable d) (hw : f.worker w.id = some w) (hlive : Live w)
    (hattempts : f.AttemptsSome) :
    ((f.registerAdapter d).2.checkFence (fenceFor f d w f.nextAdapterGen)).authorized = true := by
  rcases registerAdapter_cases f d with ⟨hnot, _⟩ | ⟨_, he⟩
  · exact absurd hd hnot
  rw [he, checkFence_authorized]
  obtain ⟨hconnected, hid, hboot⟩ := hlive
  refine ⟨{ d with generation := f.nextAdapterGen }, w, ?_⟩
  exact {
    adapter := by
      show (f.adapters.insert _ _)[d.id.str]? = _
      rw [Table.get_insert, if_pos rfl]
    adapter_some := hd.1
    epoch := rfl
    adapterGeneration := rfl
    baseModelRevision := rfl
    worker := hw
    connected := hconnected
    complete := by
      rintro (hn | hn | hn)
      · exact hid hn
      · exact hboot hn
      · -- the fence takes over the attempt in the table, or one of its own
        have hn : (f.currentAttempt[d.id.str]?.getD ⟨.ofBytes [6]⟩).isNil = true := hn
        cases ha : f.currentAttempt[d.id.str]? with
        | none =>
          rw [ha] at hn
          exact absurd hn (by decide)
        | some a =>
          rw [ha] at hn
          exact hattempts _ a ha hn
    boot := rfl
    attempt := by
      intro a ha
      have ha : f.currentAttempt[d.id.str]? = some a := ha
      show a = f.currentAttempt[d.id.str]?.getD _
      rw [ha]
      rfl
    residencyGeneration := rfl
    compositionGeneration := rfl
    artifactGeneration := rfl }

theorem recover_worker {s : FabricSnapshot} (h : s.WellFormed) (f : Fabric) {w : WorkerRecord}
    (hw : w ∈ s.workers) : (f.recover s).worker w.id = some w :=
  (Table.get_insertAll (nodup_str_iff.mpr h.workers_nodup)).mpr ⟨hw, rfl⟩

theorem recover_dormant {s : FabricSnapshot} {f : Fabric}
    (hrecords : ∀ (k : Bytes) (ar : AdapterAuthorityRecord), f.authority[k]? = some ar →
      ar.active = false ∧ ar.hasAuthority = false)
    (hwf : s.WellFormed) (hworkers : ∀ w ∈ s.workers, ¬ Live w) : (f.recover s).Dormant where
  records := hrecords
  workers k w hw := by
    have hw : (Table.insertAll (fun w : WorkerRecord => w.id.str) s.workers : StrMap _)[k]? =
      some w := hw
    obtain ⟨hmem, hkey⟩ := (Table.get_insertAll (nodup_str_iff.mpr hwf.workers_nodup)).mp hw
    exact ⟨hkey, hworkers w hmem⟩

/-- The operations after a recovery, up to the next registration of a worker or the next recovery,
leave no authority anywhere exactly when the Fabric held none before and no worker of the snapshot
is marked as connected under a proper id and boot. -/
theorem recover_authority_iff {f₀ : Fabric} (hfresh : Fresh f₀) (ops : List Op) {b : Bytes}
    {s : FabricSnapshot} (h : deserializeSnapshot b = .ok s) :
    (∀ later : List Op, (∀ op ∈ later, (∀ rec, op ≠ .registerWorker rec) ∧ op.isRecover = false) →
      (run later ((run ops f₀).recover s)).NoAuthority) ↔
    (∀ (k : Bytes) (ar : AdapterAuthorityRecord), (run ops f₀).authority[k]? = some ar →
      ar.active = false ∧ ar.hasAuthority = false) ∧
    ∀ w ∈ s.workers, ¬ Live w := by
  have hwf := wellFormed_of_deserialize h
  constructor
  · intro hno
    refine ⟨(hno [] (by simp)).records, fun w hw hlive => ?_⟩
    have hattempts : ((run ops f₀).recover s).AttemptsSome := run_attemptsSome hfresh ops
    have hauth := fenceFor_authorized (d := sampleAdapter) (by unfold Registrable; decide)
      (recover_worker hwf _ hw) hlive hattempts
    have hnone := (hno [.registerAdapter sampleAdapter] (by simp [Op.isRecover])).checkFence
      (fenceFor ((run ops f₀).recover s) sampleAdapter w s.nextAdapterGeneration)
    exact absurd hauth (by rw [Bool.not_eq_true]; exact hnone)
  · rintro ⟨hrecords, hworkers⟩ later hlater
    refine Dormant.noAuthority ?_
    exact Run.exec_preserves (P := Dormant)
      (fun op ho _ => dormant_step (hlater op ho).1 (hlater op ho).2)
      (recover_dormant hrecords hwf hworkers)

theorem recover_authority_iff_sample :
    ¬ ∀ later : List Op, (∀ op ∈ later, (∀ rec, op ≠ .registerWorker rec) ∧
      op.isRecover = false) → (run later (Fabric.default.recover sampleSnapshot)).NoAuthority := by
  intro hno
  have hiff := recover_authority_iff .default [] (deserialize_serialize sampleSnapshot_wellFormed)
  exact (hiff.mp hno).2 _ (List.mem_singleton.mpr rfl) ⟨rfl, by decide, by decide⟩

/-- A fence for the adapter and the worker of the sample snapshot. -/
def recoveredFence : AuthorityFence where
  adapter := sampleDescriptor.id
  adapterGeneration := ⟨1⟩
  compositionGeneration := ⟨1⟩
  residencyGeneration := ⟨1⟩
  artifactGeneration := ⟨1⟩
  worker := ⟨.ofBytes [3]⟩
  boot := ⟨.ofBytes [4]⟩
  attempt := ⟨.ofBytes [6]⟩

/-- A fresh Fabric that recovers a snapshot authorizes a fence on a worker that never registered. -/
theorem recover_authority_counterexample :
    deserializeSnapshot (serializeSnapshot sampleSnapshot) = .ok sampleSnapshot ∧
      ¬ (Fabric.default.recover sampleSnapshot).NoAuthority := by
  refine ⟨deserialize_serialize sampleSnapshot_wellFormed, fun h => ?_⟩
  exact absurd (h.checkFence recoveredFence) (by decide +kernel)

end Fabric

end AdapterFabric
