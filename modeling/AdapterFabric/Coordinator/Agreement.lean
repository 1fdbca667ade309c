import AdapterFabric.Coordinator.Cluster

/-!
# AdapterFabric.Coordinator.Agreement

Whether a worker holds just the adapters that the coordinator has ready residencies for on it.

* `agree_lost`, `agree_gained`, `agree_dropped`: what becomes of the agreement when one residency
  or one entry of a worker changes.
* `agreement_iff`: so a run without faults keeps the agreement exactly when no invalidation reaches
  a worker that holds the adapter, and no instance is evicted, or replaced, that was the only ready
  one of its adapter there.
-/

namespace AdapterFabric

namespace Coordinator

namespace Cluster

open Ctl (nextInstance newResidency created)

/-! ## Runs without faults -/

/-- A worker of a new id comes, or a request comes that names the worker of its fence. -/
def Taken (s : Cluster) : Action → Prop
  | .attach opts => opts.id.str ∉ s.workers
  | .request req =>
    (req.type = .ctlLoad ∨ req.type = .ctlActivate) ∧
        (∀ fence ∈ (decodeFence req.payload).toOption,
          (mustParse req.text2).toOption = some fence.worker) ∨
      req.type = .ctlRegisterAdapter ∨ req.type = .ctlDeactivate ∨ req.type = .ctlInvalidate ∨
        req.type = .ctlEvict ∨ req.type = .ctlEpoch

instance (s : Cluster) : DecidablePred s.Taken
  | .attach _ => inferInstanceAs (Decidable (¬ _))
  | .request _ => inferInstanceAs (Decidable (_ ∨ _))

def act (s : Cluster) (a : Action) : Option Cluster := if s.Taken a then some (s.apply a) else none

/-! ## Agreement -/

/-- The worker has the adapter among its residencies. -/
def Holds (s : Cluster) (w : WorkerId) (a : AdapterId) : Prop :=
  ∃ svc, s.workers[w.str]? = some svc ∧ a.str ∈ svc.localResidency

/-- The record is of a ready residency of the adapter on the worker. -/
def Shows (r : ResidencyRecord) (w : WorkerId) (a : AdapterId) : Prop :=
  r.worker = w ∧ r.adapterId = a ∧ r.ready = true

def Ready (s : Cluster) (w : WorkerId) (a : AdapterId) : Prop :=
  ∃ (k : Bytes) (r : ResidencyRecord), s.shared.fabric.residencies[k]? = some r ∧ Shows r w a

def Agree (s : Cluster) : Prop := ∀ w a, s.Holds w a ↔ s.Ready w a

/-- There is a ready residency also under another key than `k`. -/
def ReadyBesides (s : Cluster) (k : Bytes) (w : WorkerId) (a : AdapterId) : Prop :=
  ∃ (k' : Bytes) (r : ResidencyRecord), k' ≠ k ∧ s.shared.fabric.residencies[k']? = some r ∧
    Shows r w a

/-- A load does not replace, and an eviction does not take, the only ready residency of an adapter
on a worker, and no invalidation reaches a worker that holds the adapter. -/
structure Respects (s : Cluster) (req : Message) : Prop where
  load : req.type = .ctlLoad → ∀ fence d, Passes s.shared req fence d →
    ∀ r, s.shared.fabric.residency (nextInstance s.shared) = some r → r.ready = true →
      s.ReadyBesides (nextInstance s.shared).str r.worker r.adapterId ∨
        (req.text2 ∈ s.workers ∧ r.worker = fence.worker ∧ r.adapterId = fence.adapter)
  invalidate : req.type = .ctlInvalidate → ∀ id : AdapterId, mustParse req.text = .ok id →
    ∀ w, s.workers[req.text2]? = some w → id.str ∉ w.localResidency
  evict : req.type = .ctlEvict → ∀ inst, mustParse req.text = .ok inst →
    ∀ r, s.shared.fabric.residency inst = some r → r.ready = true →
      s.ReadyBesides inst.str r.worker r.adapterId

/-! ## One change on one side -/

section Change

variable {s t : Cluster} {k : Bytes}

theorem agree_congr (hholds : ∀ w a, t.Holds w a ↔ s.Holds w a)
    (hready : ∀ w a, t.Ready w a ↔ s.Ready w a) : Agree t ↔ Agree s :=
  forall₂_congr fun w a => iff_congr (hholds w a) (hready w a)

/-- At most the residency under `k` has changed. -/
def Apart (s t : Cluster) (k : Bytes) : Prop :=
  ∀ k', k' ≠ k → t.shared.fabric.residencies[k']? = s.shared.fabric.residencies[k']?

theorem ready_apart (h : Apart s t k) {w : WorkerId} {a : AdapterId} :
    t.Ready w a ↔
      s.ReadyBesides k w a ∨ ∃ r, t.shared.fabric.residencies[k]? = some r ∧ Shows r w a := by
  constructor
  · rintro ⟨k', r, hr, hshows⟩
    by_cases hk : k' = k
    · exact .inr ⟨r, hk ▸ hr, hshows⟩
    · exact .inl ⟨k', r, hk, (h k' hk).symm.trans hr, hshows⟩
  · rintro (⟨k', r, hk, hr, hshows⟩ | ⟨r, hr, hshows⟩)
    · exact ⟨k', r, (h k' hk).trans hr, hshows⟩
    · exact ⟨k, r, hr, hshows⟩

theorem ready_besides {w : WorkerId} {a : AdapterId} :
    s.Ready w a ↔
      s.ReadyBesides k w a ∨ ∃ r, s.shared.fabric.residencies[k]? = some r ∧ Shows r w a :=
  ready_apart fun _ _ => rfl

theorem agree_lost (hs : Agree s) (hholds : ∀ w a, t.Holds w a ↔ s.Holds w a) (h : Apart s t k)
    (hlost : ∀ r, t.shared.fabric.residencies[k]? = some r → r.ready = false) :
    Agree t ↔ ∀ r, s.shared.fabric.residencies[k]? = some r → r.ready = true →
      s.ReadyBesides k r.worker r.adapterId := by
  have hready (w : WorkerId) (a : AdapterId) : t.Ready w a ↔ s.ReadyBesides k w a := by
    rw [ready_apart h]
    refine or_iff_left ?_
    rintro ⟨r, hr, _, _, hready⟩
    cases (hlost r hr).symm.trans hready
  constructor
  · intro ht r hr hr'
    have hbefore : s.Ready r.worker r.adapterId := ⟨k, r, hr, rfl, rfl, hr'⟩
    exact (hready _ _).mp ((ht _ _).mp ((hholds _ _).mpr ((hs _ _).mpr hbefore)))
  · intro hothers w a
    rw [hholds, hs w a, hready, ready_besides (k := k)]
    refine or_iff_left_of_imp ?_
    rintro ⟨r, hr, rfl, rfl, hr'⟩
    exact hothers r hr hr'

theorem agree_gained (hs : Agree s) {w₀ : WorkerId} {a₀ : AdapterId}
    (hholds : ∀ w a, t.Holds w a ↔ s.Holds w a ∨ (w = w₀ ∧ a = a₀)) (h : Apart s t k)
    (hgained : ∃ r, t.shared.fabric.residencies[k]? = some r ∧ Shows r w₀ a₀) :
    Agree t ↔ ∀ r, s.shared.fabric.residencies[k]? = some r → r.ready = true →
      s.ReadyBesides k r.worker r.adapterId ∨ (r.worker = w₀ ∧ r.adapterId = a₀) := by
  have hready (w : WorkerId) (a : AdapterId) :
      t.Ready w a ↔ s.ReadyBesides k w a ∨ (w = w₀ ∧ a = a₀) := by
    rw [ready_apart h]
    refine or_congr_right ?_
    obtain ⟨r₀, hr₀, hshows⟩ := hgained
    constructor
    · rintro ⟨r, hr, rfl, rfl, _⟩
      cases hr₀.symm.trans hr
      exact ⟨hshows.1, hshows.2.1⟩
    · rintro ⟨rfl, rfl⟩
      exact ⟨r₀, hr₀, hshows⟩
  constructor
  · intro ht r hr hr'
    have hbefore : s.Ready r.worker r.adapterId := ⟨k, r, hr, rfl, rfl, hr'⟩
    exact (hready _ _).mp ((ht _ _).mp ((hholds _ _).mpr (.inl ((hs _ _).mpr hbefore))))
  · intro hothers w a
    rw [hholds, hs w a, hready, ready_besides (k := k)]
    constructor
    · rintro ((hbesides | ⟨r, hr, rfl, rfl, hr'⟩) | hnew)
      · exact .inl hbesides
      · exact hothers r hr hr'
      · exact .inr hnew
    · rintro (hbesides | hnew)
      · exact .inl (.inl hbesides)
      · exact .inr hnew

theorem agree_dropped (hs : Agree s) {workerId : Bytes} {id : AdapterId}
    (hholds : ∀ w a, t.Holds w a ↔ s.Holds w a ∧ ¬ (w.str = workerId ∧ a = id))
    (hready : ∀ w a, t.Ready w a ↔ s.Ready w a) :
    Agree t ↔ ∀ w : WorkerId, w.str = workerId → ¬ s.Holds w id := by
  constructor
  · intro ht w hw hheld
    have := (ht w id).mpr ((hready w id).mpr ((hs w id).mp hheld))
    exact ((hholds w id).mp this).2 ⟨hw, rfl⟩
  · intro hfree w a
    rw [hholds, hready, ← hs w a]
    refine and_iff_left_of_imp ?_
    rintro hheld ⟨hw, rfl⟩
    exact hfree w hw hheld

end Change

/-! ## The requests -/

/-- Workers are entered under canonical texts. -/
def Canonical (s : Cluster) : Prop := ∀ k, k ∈ s.workers → ∃ w : WorkerId, k = w.str

section Requests

variable {s t : Cluster} {req : Message}

theorem SameResidency.agree_iff (h : SameResidency s t) : Agree t ↔ Agree s := by
  refine agree_congr (fun w a => ?_) fun w a => ?_
  · unfold Holds
    rw [h.workers]
  · unfold Ready
    rw [h.residencies]

theorem holds_dropped {workerId : Bytes} {id : AdapterId} (w : WorkerId) (a : AdapterId) :
    (s.dropped workerId id).Holds w a ↔ s.Holds w a ∧ ¬ (w.str = workerId ∧ a = id) := by
  unfold Holds dropped
  dsimp only
  rw [Table.get_modify]
  by_cases hw : workerId = w.str
  · rw [if_pos hw]
    constructor
    · rintro ⟨svc', hsvc', hmem⟩
      obtain ⟨svc, hsvc, rfl⟩ := Option.map_eq_some_iff.mp hsvc'
      obtain ⟨hne, hmem⟩ := Std.ExtTreeMap.mem_erase.mp hmem
      refine ⟨⟨svc, hsvc, hmem⟩, ?_⟩
      rintro ⟨_, rfl⟩
      exact hne Std.ReflCmp.compare_self
    · rintro ⟨⟨svc, hsvc, hmem⟩, hne⟩
      refine ⟨_, Option.map_eq_some_iff.mpr ⟨svc, hsvc, rfl⟩,
        Std.ExtTreeMap.mem_erase.mpr ⟨?_, hmem⟩⟩
      intro heq
      exact hne ⟨hw.symm, (Id.str_inj (Std.LawfulEqCmp.compare_eq_iff_eq.mp heq)).symm⟩
  · rw [if_neg hw]
    exact (and_iff_left fun h => hw h.1.symm).symm

theorem holds_loaded {d : AdapterDescriptor} {fence : AuthorityFence} {svc : WorkerService}
    (hsvc : s.workers[fence.worker.str]? = some svc) (w : WorkerId) (a : AdapterId) :
    (s.loaded d fence fence.worker.str svc).Holds w a ↔
      s.Holds w a ∨ (w = fence.worker ∧ a = fence.adapter) := by
  unfold Holds loaded
  dsimp only
  rw [Table.get_insert]
  by_cases hw : fence.worker.str = w.str
  · obtain rfl := Id.str_inj hw
    rw [if_pos rfl, hsvc]
    constructor
    · rintro ⟨svc', hsvc', hmem⟩
      obtain rfl := Option.some.inj hsvc'
      rcases Std.ExtTreeMap.mem_insert.mp hmem with heq | hmem
      · exact .inr ⟨rfl, (Id.str_inj (Std.LawfulEqCmp.compare_eq_iff_eq.mp heq)).symm⟩
      · exact .inl ⟨svc, rfl, hmem⟩
    · rintro (⟨svc', hsvc', hmem⟩ | ⟨_, rfl⟩)
      · obtain rfl := Option.some.inj hsvc'
        exact ⟨_, rfl, Std.ExtTreeMap.mem_insert.mpr (.inr hmem)⟩
      · exact ⟨_, rfl, Std.ExtTreeMap.mem_insert.mpr (.inl Std.ReflCmp.compare_self)⟩
  · rw [if_neg hw]
    refine (or_iff_left ?_).symm
    rintro ⟨rfl, _⟩
    exact hw rfl

theorem apart_loading (d : AdapterDescriptor) (fence : AuthorityFence) :
    Apart s (s.loading d fence) (nextInstance s.shared).str := by
  intro k hk
  exact (Table.get_insert _ _ _ _).trans (if_neg hk.symm)

theorem apart_loaded (d : AdapterDescriptor) (fence : AuthorityFence) (workerId : Bytes)
    (svc : WorkerService) :
    Apart s (s.loaded d fence workerId svc) (nextInstance s.shared).str := by
  intro k hk
  refine Eq.trans ?_ (apart_loading d fence k hk)
  exact (Table.get_modify _ _ _ _).trans (if_neg hk.symm)

theorem agree_loading {d : AdapterDescriptor} {fence : AuthorityFence} (hs : Agree s) :
    Agree (s.loading d fence) ↔ ∀ r, s.shared.fabric.residency (nextInstance s.shared) = some r →
      r.ready = true → s.ReadyBesides (nextInstance s.shared).str r.worker r.adapterId := by
  refine agree_lost hs (fun _ _ => Iff.rfl) (apart_loading d fence) fun r hr => ?_
  have hr : (s.shared.fabric.residencies.insert (nextInstance s.shared).str
      (newResidency s.shared d fence))[(nextInstance s.shared).str]? = some r := hr
  rw [Table.get_insert, if_pos rfl] at hr
  obtain rfl := Option.some.inj hr
  rfl

theorem agree_loaded {d : AdapterDescriptor} {fence : AuthorityFence} {svc : WorkerService}
    (hs : Agree s) (hsvc : s.workers[fence.worker.str]? = some svc) :
    Agree (s.loaded d fence fence.worker.str svc) ↔
      ∀ r, s.shared.fabric.residency (nextInstance s.shared) = some r → r.ready = true →
        s.ReadyBesides (nextInstance s.shared).str r.worker r.adapterId ∨
          (r.worker = fence.worker ∧ r.adapterId = fence.adapter) := by
  refine agree_gained hs (holds_loaded hsvc) (apart_loaded d fence _ svc) ?_
  refine ⟨{ newResidency s.shared d fence with ready := true, bytes := 1 }, ?_, rfl, rfl, rfl⟩
  show ((s.shared.fabric.residencies.insert (nextInstance s.shared).str
    (newResidency s.shared d fence)).modify (nextInstance s.shared).str
      fun r => { r with ready := true, bytes := 1 })[(nextInstance s.shared).str]? = _
  rw [Table.get_modify, if_pos rfl, Table.get_insert, if_pos rfl]
  rfl

theorem holds_attach {opts : WorkerOptions} (hnew : opts.id.str ∉ s.workers) (w : WorkerId)
    (a : AdapterId) : (s.attach opts).Holds w a ↔ s.Holds w a := by
  have hworkers : (s.attach opts).workers =
      s.workers.insert opts.id.str (WorkerService.ofOptions opts) := rfl
  unfold Holds
  rw [hworkers, Table.get_insert]
  by_cases hw : opts.id.str = w.str
  · rw [if_pos hw]
    constructor
    · rintro ⟨svc, hsvc, hmem⟩
      obtain rfl := Option.some.inj hsvc
      exact absurd hmem Std.ExtTreeMap.not_mem_empty
    · rintro ⟨svc, hsvc, _⟩
      exact absurd (mem_workers hsvc) (hw ▸ hnew)
  · rw [if_neg hw]

/-- A registration resets residencies of its own worker only. -/
theorem ready_attach {opts : WorkerOptions} (hnone : ∀ a, ¬ s.Ready opts.id a) (w : WorkerId)
    (a : AdapterId) : (s.attach opts).Ready w a ↔ s.Ready w a := by
  have hfabric : (s.attach opts).shared.fabric =
      wkRegister s.shared.fabric (WorkerService.ofOptions opts).registration := rfl
  unfold Ready
  rw [hfabric]
  rcases wkRegister_cases s.shared.fabric (WorkerService.ofOptions opts).registration with
    he | ⟨rec, hid, _, _, he⟩
  · rw [he]
  · have hrec : opts.id = rec.id := Except.ok.inj ((mustParse_str opts.id).symm.trans hid)
    rw [he]
    constructor
    · rintro ⟨k, r, hr, hshows⟩
      obtain ⟨r₀, hr₀, hrestart⟩ :=
        Option.map_eq_some_iff.mp (Std.ExtTreeMap.getElem?_map.symm.trans hr)
      split at hrestart
      · subst hrestart
        cases hshows.2.2
      · exact ⟨k, r₀, hr₀, hrestart ▸ hshows⟩
    · rintro ⟨k, r, hr, hshows⟩
      have hother : ¬ (r.worker = rec.id ∧ r.boot ≠ rec.boot) := by
        rintro ⟨hw, _⟩
        exact hnone r.adapterId ⟨k, r, hr, hw.trans hrec.symm, rfl, hshows.2.2⟩
      refine ⟨k, r, Std.ExtTreeMap.getElem?_map.trans ?_, hshows⟩
      show Option.map _ (s.shared.fabric.residencies[k]?) = some r
      rw [hr, Option.map_some, if_neg hother]

theorem agree_attach {opts : WorkerOptions} (hs : Agree s) (hnew : opts.id.str ∉ s.workers) :
    Agree (s.attach opts) := by
  have hnone (a : AdapterId) : ¬ s.Ready opts.id a := by
    intro hready
    obtain ⟨svc, hsvc, _⟩ := (hs opts.id a).mpr hready
    exact hnew (mem_workers hsvc)
  exact (agree_congr (holds_attach hnew) (ready_attach hnone)).mpr hs

theorem agree_request_load (hs : Agree s) (hcanonical : Canonical s) (htype : req.type = .ctlLoad)
    (htext : ∀ fence ∈ (decodeFence req.payload).toOption,
      (mustParse req.text2).toOption = some fence.worker) :
    Agree (s.request req).2 ↔ Respects s req := by
  have hrespects : Respects s req ↔ ∀ fence d, Passes s.shared req fence d →
      ∀ r, s.shared.fabric.residency (nextInstance s.shared) = some r → r.ready = true →
        s.ReadyBesides (nextInstance s.shared).str r.worker r.adapterId ∨
          (req.text2 ∈ s.workers ∧ r.worker = fence.worker ∧ r.adapterId = fence.adapter) := by
    refine ⟨fun h => h.load htype, fun h => ⟨fun _ => h, fun ht => ?_, fun ht => ?_⟩⟩
    · cases htype.symm.trans ht
    · cases htype.symm.trans ht
  rw [hrespects]
  rcases request_load (s := s) htype with
    ⟨hno, _, he⟩ | ⟨fence, d, hp, ⟨hw, _, he⟩ | ⟨svc, hsvc, _, _, he⟩⟩
  · rw [he]
    exact iff_of_true hs fun fence d hp => absurd hp (hno fence d)
  · have hdetached : req.text2 ∉ s.workers := by
      rw [Std.ExtTreeMap.mem_iff_isSome_getElem?, hw]
      simp
    rw [he, agree_loading hs]
    constructor
    · exact fun h fence' d' _ r hr hready => .inl (h r hr hready)
    · exact fun h r hr hready =>
        (h fence d hp r hr hready).resolve_right fun hattached => hdetached hattached.1
  · have hmem := mem_workers hsvc
    -- the canonical text of the worker that the fence names
    have hworker : req.text2 = fence.worker.str := by
      obtain ⟨w, hw⟩ := hcanonical req.text2 hmem
      have hnamed := htext fence (by simp [hp.decoded, Except.toOption])
      rw [hw, mustParse_str] at hnamed
      rw [hw, Option.some.inj hnamed]
    rw [hworker] at hsvc
    rw [he, hworker, agree_loaded hs hsvc]
    constructor
    · intro h fence' d' hp' r hr hready
      cases hp.decoded.symm.trans hp'.decoded
      exact (h r hr hready).imp_right fun hpair => ⟨hworker ▸ hmem, hpair⟩
    · exact fun h r hr hready => (h fence d hp r hr hready).imp_right fun hpair => hpair.2

theorem agree_request_invalidate (hs : Agree s) (hcanonical : Canonical s)
    (htype : req.type = .ctlInvalidate) : Agree (s.request req).2 ↔ Respects s req := by
  have hrespects : Respects s req ↔ ∀ id : AdapterId, mustParse req.text = .ok id →
      ∀ w, s.workers[req.text2]? = some w → id.str ∉ w.localResidency := by
    refine ⟨fun h => h.invalidate htype, fun h => ⟨fun ht => ?_, fun _ => h, fun ht => ?_⟩⟩
    · cases htype.symm.trans ht
    · cases htype.symm.trans ht
  rw [hrespects]
  rcases request_invalidate (s := s) htype with ⟨hno, he⟩ | ⟨id, reason, hid, he⟩
  · rw [he]
    exact iff_of_true hs fun id hid => absurd hid (hno id)
  · have hholds (w : WorkerId) (a : AdapterId) :
        (s.request req).2.Holds w a ↔ s.Holds w a ∧ ¬ (w.str = req.text2 ∧ a = id) := by
      rw [he]
      exact holds_dropped w a
    have hready (w : WorkerId) (a : AdapterId) : (s.request req).2.Ready w a ↔ s.Ready w a := by
      rw [he]
      rfl
    rw [agree_dropped hs hholds hready]
    constructor
    · intro h id' hid' svc hsvc hmem
      cases hid.symm.trans hid'
      obtain ⟨w, hw⟩ := hcanonical req.text2 (mem_workers hsvc)
      exact h w hw.symm ⟨svc, hw ▸ hsvc, hmem⟩
    · rintro h w hw ⟨svc, hsvc, hmem⟩
      exact h id hid svc (hw ▸ hsvc) hmem

theorem agree_request_evict (hs : Agree s) (hfree : Free s.shared.fabric)
    (htype : req.type = .ctlEvict) : Agree (s.request req).2 ↔ Respects s req := by
  have hrespects : Respects s req ↔ ∀ inst, mustParse req.text = .ok inst →
      ∀ r, s.shared.fabric.residency inst = some r → r.ready = true →
        s.ReadyBesides inst.str r.worker r.adapterId := by
    refine ⟨fun h => h.evict htype, fun h => ⟨fun ht => ?_, fun ht => ?_, fun _ => h⟩⟩
    · cases htype.symm.trans ht
    · cases htype.symm.trans ht
  rw [hrespects]
  rcases request_evict (s := s) htype with ⟨hno, _, he⟩ | ⟨inst, hid, _, he⟩
  · rw [he]
    exact iff_of_true hs fun inst hid => absurd hid (hno inst)
  · have hfabric : (s.request req).2.shared.fabric =
        ((Section.evict inst).run s.shared).2.fabric := by rw [he]; rfl
    have hholds (w : WorkerId) (a : AdapterId) : (s.request req).2.Holds w a ↔ s.Holds w a := by
      rw [he]
      rfl
    rcases hfree.evict_cases inst with ⟨hr, hfails, hsame⟩ | ⟨r, hr, hdone, herased⟩
    · refine iff_of_true ((agree_congr hholds fun w a => ?_).mpr hs) ?_
      · unfold Ready
        rw [hfabric, run_evict_refused hfails, hsame]
      · intro inst' hid' r hr'
        cases hid.symm.trans hid'
        cases hr.symm.trans hr'
    · have hresidencies : (s.request req).2.shared.fabric.residencies =
          s.shared.fabric.residencies.erase inst.str := by
        rw [hfabric, run_evict_done hr hdone, herased]
        rfl
      have hapart : Apart s (s.request req).2 inst.str := by
        intro k hk
        rw [hresidencies, Table.get_erase, if_neg hk.symm]
      rw [agree_lost hs hholds hapart fun r' hr' => ?_]
      · constructor
        · intro h inst' hid'
          cases hid.symm.trans hid'
          exact h
        · exact fun h => h inst hid
      · rw [hresidencies, Table.get_erase, if_pos rfl] at hr'
        cases hr'

theorem agree_request_same {type : MsgType} (hs : Agree s)
    (h : SameResidency s (s.request req).2) (htype : req.type = type)
    (hother : type ≠ .ctlLoad ∧ type ≠ .ctlInvalidate ∧ type ≠ .ctlEvict) :
    Agree (s.request req).2 ↔ Respects s req := by
  subst htype
  obtain ⟨hload, hinvalidate, hevict⟩ := hother
  exact iff_of_true (h.agree_iff.mpr hs)
    ⟨fun ht => absurd ht hload, fun ht => absurd ht hinvalidate, fun ht => absurd ht hevict⟩

end Requests

/-! ## Runs -/

section Runs

variable {s t : Cluster} {a : Action}

theorem act_cases (h : s.act a = some t) : s.Taken a ∧ t = s.apply a := by
  unfold act at h
  split at h
  · exact ⟨‹_›, (Option.some.inj h).symm⟩
  · cases h

/-- What holds along runs without faults. -/
structure Regular (s : Cluster) : Prop where
  free : Free s.shared.fabric
  canonical : Canonical s

theorem Regular.same (h : Regular s) (hsame : SameResidency s t) : Regular t :=
  ⟨h.free.congr hsame.residencies, fun k hk => h.canonical k (hsame.workers ▸ hk)⟩

theorem Canonical.insert (h : Canonical s) {k : Bytes} {svc : WorkerService}
    (hk : ∃ w : WorkerId, k = w.str) (ht : t.workers = s.workers.insert k svc) : Canonical t := by
  intro k' hk'
  rw [ht, Std.ExtTreeMap.mem_insert] at hk'
  rcases hk' with heq | hk'
  · rwa [← Std.LawfulEqCmp.compare_eq_iff_eq.mp heq]
  · exact h k' hk'

theorem regular_attach (h : Regular s) (opts : WorkerOptions) : Regular (s.attach opts) :=
  ⟨h.free.wkRegister _, h.canonical.insert ⟨opts.id, rfl⟩ rfl⟩

theorem regular_load {req : Message} (h : Regular s) (htype : req.type = .ctlLoad) :
    Regular (s.request req).2 := by
  rcases request_load (s := s) htype with
    ⟨_, _, he⟩ | ⟨fence, d, _, ⟨_, _, he⟩ | ⟨svc, hsvc, _, _, he⟩⟩
  · rwa [he]
  · rw [he]
    exact ⟨h.free.loading d fence, h.canonical⟩
  · rw [he]
    exact ⟨h.free.loaded d fence req.text2 svc,
      h.canonical.insert (h.canonical _ (mem_workers hsvc)) rfl⟩

theorem regular_invalidate {req : Message} (h : Regular s) (htype : req.type = .ctlInvalidate) :
    Regular (s.request req).2 := by
  rcases request_invalidate (s := s) htype with ⟨_, he⟩ | ⟨id, reason, _, he⟩
  · rwa [he]
  · rw [he]
    exact ⟨h.free.congr rfl, fun k hk => h.canonical k (Std.ExtTreeMap.mem_modify.mp hk)⟩

theorem regular_evict {req : Message} (h : Regular s) (htype : req.type = .ctlEvict) :
    Regular (s.request req).2 := by
  rcases request_evict (s := s) htype with ⟨_, _, he⟩ | ⟨inst, _, _, he⟩
  · rwa [he]
  · rw [he]
    exact ⟨h.free.evicted inst, h.canonical⟩

theorem act_regular (h : s.act a = some t) (hs : Regular s) : Regular t := by
  obtain ⟨htaken, rfl⟩ := act_cases h
  cases a with
  | attach opts => exact regular_attach hs opts
  | request req =>
    rcases htaken with ⟨htype | htype, _⟩ | htype | htype | htype | htype | htype
    · exact regular_load hs htype
    · exact hs.same (activate_same htype)
    · exact hs.same (registerAdapter_same htype)
    · exact hs.same (deactivate_same htype)
    · exact regular_invalidate hs htype
    · exact regular_evict hs htype
    · exact hs.same (epoch_same htype)

theorem act_agree (h : s.act a = some t) (hregular : Regular s) (hs : Agree s) :
    Agree t ↔ ∀ req, a = .request req → Respects s req := by
  obtain ⟨htaken, rfl⟩ := act_cases h
  cases a with
  | attach opts => exact iff_of_true (agree_attach hs htaken) nofun
  | request req =>
    have hrespects : (∀ req', Action.request req = .request req' → Respects s req') ↔
        Respects s req := by
      constructor
      · exact fun h => h req rfl
      · rintro h req' ⟨⟩
        exact h
    rw [hrespects]
    show Agree (s.request req).2 ↔ _
    rcases htaken with ⟨htype | htype, htext⟩ | htype | htype | htype | htype | htype
    · exact agree_request_load hs hregular.canonical htype htext
    · exact agree_request_same hs (activate_same htype) htype (by decide)
    · exact agree_request_same hs (registerAdapter_same htype) htype (by decide)
    · exact agree_request_same hs (deactivate_same htype) htype (by decide)
    · exact agree_request_invalidate hs hregular.canonical htype
    · exact agree_request_evict hs hregular.free htype
    · exact agree_request_same hs (epoch_same htype) htype (by decide)

theorem Initial.regular (h : Initial s) : Regular s := by
  obtain ⟨limits, rng, rfl⟩ := h
  exact ⟨.of_empty rfl, fun k hk => absurd hk Std.ExtTreeMap.not_mem_empty⟩

theorem Initial.agree (h : Initial s) : Agree s := by
  obtain ⟨limits, rng, rfl⟩ := h
  intro w a
  constructor
  · rintro ⟨svc, hsvc, _⟩
    cases Std.ExtTreeMap.getElem?_empty.symm.trans hsvc
  · rintro ⟨k, r, hr, _⟩
    cases Std.ExtTreeMap.getElem?_empty.symm.trans hr

/-- Along a run without faults the workers hold just what the coordinator has ready residencies for,
exactly when each request respects the residencies there are. -/
theorem agreement_iff {path : List (Action × Cluster)} (h₀ : Initial s)
    (h : Run.Each (fun s a t => s.act a = some t) s path) :
    (∀ x ∈ path, Agree x.2) ↔
      Run.Each (fun s a _ => ∀ req, a = .request req → Respects s req) s path :=
  h.always_iff (I := Regular) (P := Agree) act_regular act_agree h₀.regular h₀.agree

end Runs

/-! ### One adapter on one worker -/

open Fabric (sampleAdapter sampleFence)

def emptyCluster : Cluster where
  shared := { fabric := .ofLimits ∅, rng := .instanceInit }

/-- The fence of an adapter on a worker that was started with the options. -/
def fenceOn (opts : WorkerOptions) : AuthorityFence :=
  { sampleFence with worker := opts.id, boot := (WorkerService.ofOptions opts).boot }

/-- A worker comes, and the adapter is registered, loaded on it and activated. -/
def activating : List Action := [
  .attach { id := sampleFence.worker },
  .request adapterRequest,
  .request { loadRequest with payload := encodeFence (fenceOn { id := sampleFence.worker }) },
  .request { activateRequest with payload := encodeFence (fenceOn { id := sampleFence.worker }) }]

/-- The instance that the load creates. -/
def firstInstance : AdapterInstanceId := (Id.generate .instanceInit).1

theorem respects_of_fresh {s : Cluster} {req : Message}
    (hload : req.type = .ctlLoad →
      (s.shared.fabric.residency (nextInstance s.shared)).isNone = true)
    (hinvalidate : req.type ≠ .ctlInvalidate) (hevict : req.type ≠ .ctlEvict) :
    Respects s req := by
  refine ⟨fun ht fence d _ r hr => ?_, fun ht => absurd ht hinvalidate, fun ht => absurd ht hevict⟩
  have hnone := hload ht
  rw [hr] at hnone
  cases hnone

theorem agreement_iff_sample :
    ∃ path : List (Action × Cluster), path.map Prod.fst = activating ∧ ∀ x ∈ path, Agree x.2 := by
  obtain ⟨path, hpath, hactions, hfresh⟩ := Run.exists_checked act
    (fun s a _ => match a with
      | .attach _ => true
      | .request req => decide ((req.type = .ctlLoad →
          (s.shared.fabric.residency (nextInstance s.shared)).isNone = true) ∧
        req.type ≠ .ctlInvalidate ∧ req.type ≠ .ctlEvict))
    activating emptyCluster (by decide +kernel) (by decide +kernel)
  refine ⟨path, hactions, (agreement_iff ⟨_, _, rfl⟩ hpath).mpr (hfresh.imp ?_)⟩
  rintro s a t hchecked req rfl
  obtain ⟨hload, hinvalidate, hevict⟩ := of_decide_eq_true hchecked
  exact respects_of_fresh hload hinvalidate hevict

def invalidateRequest : Message where
  type := .ctlInvalidate
  text := sampleAdapter.id.str
  text2 := sampleFence.worker.str

def evictRequest : Message where
  type := .ctlEvict
  text := firstInstance.str
  text2 := sampleFence.worker.str

/-- The invalidation leaves a ready residency of an adapter that the worker no longer holds, and the
eviction an adapter on the worker without a residency. -/
theorem agreement_counterexample :
    (∃ s, Run.tryExec act (activating ++ [.request invalidateRequest]) emptyCluster = some s ∧
      s.Ready sampleFence.worker sampleAdapter.id ∧ ¬ Agree s) ∧
    ∃ s, Run.tryExec act (activating ++ [.request evictRequest]) emptyCluster = some s ∧
      s.Holds sampleFence.worker sampleAdapter.id ∧ ¬ Agree s := by
  constructor
  · obtain ⟨s, hs, hready, hworker⟩ : ∃ s,
        Run.tryExec act (activating ++ [.request invalidateRequest]) emptyCluster = some s ∧
        (s.shared.fabric.residency firstInstance).map (fun r => (r.worker, r.adapterId, r.ready)) =
          some (sampleFence.worker, sampleAdapter.id, true) ∧
        (s.workers[sampleFence.worker.str]?).map
          (·.localResidency.contains sampleAdapter.id.str) = some false :=
      Run.exists_tryExec (by decide +kernel)
    obtain ⟨r, hr, hshows⟩ := Option.map_eq_some_iff.mp hready
    simp only [Prod.mk.injEq] at hshows
    have hready : s.Ready sampleFence.worker sampleAdapter.id :=
      ⟨firstInstance.str, r, hr, hshows⟩
    refine ⟨s, hs, hready, fun hagree => ?_⟩
    obtain ⟨svc, hsvc, hmem⟩ := (hagree _ _).mpr hready
    rw [hsvc, Option.map_some, Std.ExtTreeMap.contains_iff_mem.mpr hmem] at hworker
    cases hworker
  · obtain ⟨s, hs, hempty, hworker⟩ : ∃ s,
        Run.tryExec act (activating ++ [.request evictRequest]) emptyCluster = some s ∧
        s.shared.fabric.residencies.isEmpty = true ∧
        (s.workers[sampleFence.worker.str]?).map
          (·.localResidency.contains sampleAdapter.id.str) = some true :=
      Run.exists_tryExec (by decide +kernel)
    obtain ⟨svc, hsvc, hmem⟩ := Option.map_eq_some_iff.mp hworker
    have hholds : s.Holds sampleFence.worker sampleAdapter.id :=
      ⟨svc, hsvc, Std.ExtTreeMap.contains_iff_mem.mp hmem⟩
    refine ⟨s, hs, hholds, fun hagree => ?_⟩
    obtain ⟨k, r, hr, _⟩ := (hagree _ _).mp hholds
    rw [Std.ExtTreeMap.isEmpty_iff.mp hempty, Std.ExtTreeMap.getElem?_empty] at hr
    cases hr

end Cluster

end Coordinator

end AdapterFabric
