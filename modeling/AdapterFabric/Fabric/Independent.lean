import AdapterFabric.Fabric.Exclusive

/-!
# AdapterFabric.Fabric.Independent

Failures of different workers (`on_worker_down` and `on_worker_restart` of `fabric.cpp`).

Both revoke the records whose fence is lost, mark residencies and write the registration of one
worker. Revoking leaves every fence as it is, so what is lost to one failure is not changed by
another.

* `failures_independent`: failures of two workers commute, each is idempotent, and it leaves alone
  what belongs to other workers.
* `exec_failures_perm`: failures of different workers end in one state, whatever their order.
-/

namespace AdapterFabric

open Std

namespace Fabric

/-- The events by which the Fabric learns that a worker failed. -/
inductive Failure where
  | down (id : WorkerId)
  | restart (id : WorkerId) (newBoot : WorkerBootId)

namespace Failure

def worker : Failure → WorkerId
  | down id => id
  | restart id _ => id

def apply : Failure → Fabric → Fabric
  | down id, f => f.onWorkerDown id
  | restart id newBoot, f => f.onWorkerRestart id newBoot

/-- The fences that the failure revokes. -/
def lost : Failure → AuthorityFence → Bool
  | down id, fence => fence.worker = id
  | restart id newBoot, fence => fence.worker = id ∧ fence.boot ≠ newBoot

/-- What the failure does to a residency. -/
def mark : Failure → ResidencyRecord → ResidencyRecord
  | down id, r => if r.worker = id then { r with ready := false } else r
  | restart id newBoot, r =>
    if r.worker = id ∧ r.boot ≠ newBoot then { r with ready := false, migration := .none } else r

/-- What the failure does to the registration of its worker. -/
def disconnect : Failure → WorkerRecord → WorkerRecord
  | down _, w => { w with connected := false }
  | restart _ _, w => w

theorem apply_eq (a : Failure) (f : Fabric) : a.apply f = { f.revokeWhere a.lost with
    residencies := f.residencies.map fun _ r => a.mark r
    workers := f.workers.modify a.worker.str a.disconnect } := by
  cases a with
  | down id => rfl
  | restart id newBoot =>
    have hworkers : f.workers.modify id.str (disconnect (.restart id newBoot)) = f.workers :=
      Table.modify_eq_self.mpr fun _ _ => rfl
    simp only [worker, hworkers]
    rfl

section Pair

variable {a b : Failure} {r : ResidencyRecord} {fence : AuthorityFence}

theorem lost_of_ne (h : fence.worker ≠ a.worker) : a.lost fence = false := by
  cases a <;> simp_all [lost, worker]

theorem mark_of_ne (h : r.worker ≠ a.worker) : a.mark r = r := by
  cases a <;> simp_all [mark, worker]

@[simp] theorem worker_mark (a : Failure) (r : ResidencyRecord) : (a.mark r).worker = r.worker := by
  cases a <;> simp only [mark] <;> split <;> rfl

@[simp] theorem mark_mark (a : Failure) (r : ResidencyRecord) : a.mark (a.mark r) = a.mark r := by
  cases a <;> simp only [mark] <;> split <;> simp_all

@[simp] theorem disconnect_disconnect (a : Failure) (w : WorkerRecord) :
    a.disconnect (a.disconnect w) = a.disconnect w := by
  cases a <;> rfl

/-- A residency is on one worker only. -/
theorem mark_comm (h : a.worker ≠ b.worker) (r : ResidencyRecord) :
    a.mark (b.mark r) = b.mark (a.mark r) := by
  by_cases ha : r.worker = a.worker
  · have hb : r.worker ≠ b.worker := ha ▸ h
    have hmarked : (a.mark r).worker ≠ b.worker := by rwa [worker_mark]
    rw [mark_of_ne hb, mark_of_ne hmarked]
  · have hmarked : (b.mark r).worker ≠ a.worker := by rwa [worker_mark]
    rw [mark_of_ne ha, mark_of_ne hmarked]

end Pair

end Failure

/-! ## Revoking twice -/

section Revoke

variable (f : Fabric) (lost lost' : AuthorityFence → Bool)

theorem revoke_authority_twice :
    ((f.revokeWhere lost).revokeWhere lost').authority =
      (f.revokeWhere fun fence => lost fence || lost' fence).authority := by
  refine ExtTreeMap.ext_getElem? fun k => ?_
  simp only [revokeWhere_authority, Option.map_map]
  congr 1
  funext ar
  by_cases h : lost ar.fence = true
  · simp only [Function.comp_apply, h, Bool.true_or, if_true]
    split <;> rfl
  · simp [Function.comp_apply, h]

/-- Revoked records keep their fences, so the second pass loses what it would have lost alone. -/
theorem revoke_attempts_twice :
    ((f.revokeWhere lost).revokeWhere lost').currentAttempt =
      (f.revokeWhere fun fence => lost fence || lost' fence).currentAttempt := by
  refine ExtTreeMap.ext_getElem? fun k => ?_
  cases hk : f.authority[k]? with
  | none =>
    have hk' : (f.revokeWhere lost).authority[k]? = none := by
      rw [revokeWhere_authority, hk]
      rfl
    rw [revokeWhere_attempt_kept (by simp [hk']), revokeWhere_attempt_kept (by simp [hk]),
      revokeWhere_attempt_kept (by simp [hk])]
  | some ar =>
    obtain ⟨ar', hk', hfence⟩ : ∃ ar', (f.revokeWhere lost).authority[k]? = some ar' ∧
        ar'.fence = ar.fence := by
      rw [revokeWhere_authority, hk]
      refine ⟨_, rfl, ?_⟩
      dsimp only
      split <;> rfl
    by_cases h' : lost' ar.fence = true
    · rw [revokeWhere_attempt_lost hk' (by rw [hfence, h']),
        revokeWhere_attempt_lost hk (by simp [h'])]
    · rw [revokeWhere_attempt_kept (by simp [hk', hfence, h'])]
      by_cases h : lost ar.fence = true
      · rw [revokeWhere_attempt_lost hk h, revokeWhere_attempt_lost hk (by simp [h])]
      · rw [revokeWhere_attempt_kept (by simp [hk, h]),
          revokeWhere_attempt_kept (by simp [hk, h, h'])]

theorem revokeWhere_revokeWhere :
    (f.revokeWhere lost).revokeWhere lost' =
      f.revokeWhere fun fence => lost fence || lost' fence := by
  have hauthority := revoke_authority_twice f lost lost'
  have hattempts := revoke_attempts_twice f lost lost'
  have hfence : ((f.revokeWhere lost).revokeWhere lost').activeFence =
      (f.revokeWhere fun fence => lost fence || lost' fence).activeFence := by
    show (f.activeFence.filter _).filter _ = f.activeFence.filter _
    simp [Option.filter_filter]
  simp only [revokeWhere] at hauthority hattempts hfence ⊢
  rw [hauthority, hattempts, hfence]

end Revoke

/-! ## Two failures -/

section Failures

variable {a b : Failure} {f : Fabric}

theorem Failure.apply_apply (a b : Failure) (f : Fabric) : a.apply (b.apply f) =
    { f.revokeWhere fun fence => b.lost fence || a.lost fence with
      residencies := f.residencies.map fun _ r => a.mark (b.mark r)
      workers :=
        (f.workers.modify b.worker.str b.disconnect).modify a.worker.str a.disconnect } := by
  have hmarks : (f.residencies.map fun _ r => b.mark r).map (fun _ r => a.mark r) =
      f.residencies.map fun _ r => a.mark (b.mark r) := ExtTreeMap.map_map
  rw [a.apply_eq, b.apply_eq, ← revokeWhere_revokeWhere, ← hmarks]
  rfl

theorem Failure.apply_comm (h : a.worker ≠ b.worker) (f : Fabric) :
    a.apply (b.apply f) = b.apply (a.apply f) := by
  have hlost : (fun fence => b.lost fence || a.lost fence) =
      fun fence => a.lost fence || b.lost fence :=
    funext fun fence => Bool.or_comm _ _
  have hkeys : b.worker.str ≠ a.worker.str := fun e => h (Id.str_inj e).symm
  rw [a.apply_apply b, b.apply_apply a, hlost, Table.modify_comm _ hkeys]
  simp only [mark_comm h]

theorem Failure.apply_self (a : Failure) (f : Fabric) : a.apply (a.apply f) = a.apply f := by
  rw [a.apply_apply, a.apply_eq, Table.modify_modify]
  simp only [Bool.or_self, mark_mark, disconnect_disconnect]

/-- What does not belong to the worker is as it was. -/
structure Untouched (id : WorkerId) (f f' : Fabric) : Prop where
  record : ∀ (k : Bytes) (ar : AdapterAuthorityRecord), f.authority[k]? = some ar →
    ar.fence.worker ≠ id → f'.authority[k]? = some ar
  attempt : ∀ (k : Bytes) (ar : AdapterAuthorityRecord), f.authority[k]? = some ar →
    ar.fence.worker ≠ id → f'.currentAttempt[k]? = f.currentAttempt[k]?
  residency : ∀ (k : Bytes) (r : ResidencyRecord), f.residencies[k]? = some r → r.worker ≠ id →
    f'.residencies[k]? = some r
  worker : ∀ id', id' ≠ id → f'.worker id' = f.worker id'
  activeFence : (∀ held, f.activeFence = some held → held.worker ≠ id) →
    f'.activeFence = f.activeFence

theorem Failure.untouched (a : Failure) (f : Fabric) : Untouched a.worker f (a.apply f) := by
  rw [a.apply_eq]
  constructor
  · intro k ar hk hne
    show (f.revokeWhere a.lost).authority[k]? = some ar
    simp [revokeWhere_authority, hk, lost_of_ne hne]
  · intro k ar hk hne
    show (f.revokeWhere a.lost).currentAttempt[k]? = _
    refine revokeWhere_attempt_kept fun ar' hk' => ?_
    obtain rfl : ar = ar' := Option.some.inj (hk.symm.trans hk')
    exact lost_of_ne hne
  · intro k r hk hne
    simp [ExtTreeMap.getElem?_map, hk, mark_of_ne hne]
  · intro id' hne
    have hkeys : a.worker.str ≠ id'.str := fun e => hne (Id.str_inj e).symm
    show (f.workers.modify a.worker.str a.disconnect)[id'.str]? = _
    rw [Table.get_modify, if_neg hkeys]
    rfl
  · intro hheld
    show f.activeFence.filter (fun held => !a.lost held) = f.activeFence
    cases hslot : f.activeFence with
    | none => rfl
    | some held => simp [lost_of_ne (hheld held hslot)]

/-- Failures of two workers commute, each is idempotent, and each leaves the others' alone. -/
theorem failures_independent (f : Fabric) {a b : Failure} (h : a.worker ≠ b.worker) :
    a.apply (b.apply f) = b.apply (a.apply f) ∧ a.apply (a.apply f) = a.apply f ∧
      Untouched a.worker f (a.apply f) :=
  ⟨Failure.apply_comm h f, a.apply_self f, a.untouched f⟩

/-- The worker of the bound fence goes down, and another one restarts. -/
def sampleFailures : Failure × Failure :=
  (.down sampleWorker.id, .restart ⟨.ofBytes [9]⟩ ⟨.ofBytes [10]⟩)

theorem failures_independent_sample :
    sampleFailures.1.worker ≠ sampleFailures.2.worker ∧
      sampleFailures.1.apply (sampleFailures.2.apply (run sampleOps .default)) =
        sampleFailures.2.apply (sampleFailures.1.apply (run sampleOps .default)) :=
  ⟨by decide, (failures_independent _ (by decide)).1⟩

/-- Failures of different workers end in one state, whatever their order. -/
theorem exec_failures_perm {as bs : List Failure} (hperm : as.Perm bs)
    (hnodup : (as.map Failure.worker).Nodup) (f : Fabric) :
    Run.exec Failure.apply as f = Run.exec Failure.apply bs f := by
  refine Run.exec_perm hperm (fun a ha b hb f => ?_) f
  by_cases h : a.worker = b.worker
  · obtain rfl : a = b := List.inj_on_of_nodup_map hnodup ha hb h
    rfl
  · exact Failure.apply_comm (Ne.symm h) f

end Failures

end Fabric

end AdapterFabric
