import AdapterFabric.Fabric.Exclusive

/-!
# AdapterFabric.Fabric.Attempt

The attempt table over whole runs.

* `attempt_kept`: an operation leaves the attempt of an adapter in the table, or takes the adapter's
  authority away from its worker.
* `attempt_fenced`: between two binds with different attempts some operation has done the latter.
-/

namespace AdapterFabric

namespace Fabric

/-- The operation clears the authority record of `a`: its fence names the worker that went down, or
the one that restarted, under another boot. -/
def Op.Clears (a : AdapterId) (f : Fabric) : Op → Prop
  | .onWorkerDown id => ∃ ar, f.authorityRecord a = some ar ∧ ar.fence.worker = id
  | .onWorkerRestart id boot =>
    ∃ ar, f.authorityRecord a = some ar ∧ ar.fence.worker = id ∧ ar.fence.boot ≠ boot
  | _ => False

/-- If it binds under `a`, it binds a fence that names `a`. -/
def Op.KeyedAt (a : AdapterId) : Op → Prop
  | .bindAuthority id fence => id = a → fence.adapter = a
  | _ => True

section Step

variable {f : Fabric} {a : AdapterId} {t : AttemptId}

theorem revokeWhere_attempt_cases (lost : AuthorityFence → Bool)
    (h : f.currentAttempt[a.str]? = some t) :
    (f.revokeWhere lost).currentAttempt[a.str]? = some t ∨
      ∃ ar, f.authorityRecord a = some ar ∧ lost ar.fence = true := by
  by_cases hlost : ∃ ar, f.authorityRecord a = some ar ∧ lost ar.fence = true
  · exact .inr hlost
  · rw [revokeWhere_attempt_kept]
    · exact .inl h
    · intro ar har
      by_contra hne
      exact hlost ⟨ar, har, by simpa using hne⟩

theorem bindAuthority_attempt {id : AdapterId} {F : AuthorityFence} (hkey : id = a → F.adapter = a)
    (h : f.currentAttempt[a.str]? = some t) :
    (f.bindAuthority id F).2.currentAttempt[a.str]? = some t := by
  rcases bindAuthority_cases f id F with he | ⟨ar, hauth, _, _, he⟩
  · rwa [he]
  rw [he]
  show (f.currentAttempt.insert id.str F.attempt)[a.str]? = some t
  rw [Table.get_insert]
  by_cases hid : id = a
  · -- the fence was authorized, so it carries the attempt that was there
    obtain ⟨d, w, hc⟩ := checkFence_authorized.mp hauth
    have ht : t = F.attempt := hc.attempt t (by rw [hkey hid]; exact h)
    rw [if_pos (by rw [hid]), ht]
  · rw [if_neg fun hstr => hid (Id.str_inj hstr)]
    exact h

theorem attempt_kept {op : Op} (hop : op.KeyedAt a) (h : f.currentAttempt[a.str]? = some t) :
    (op.apply f).currentAttempt[a.str]? = some t ∨ op.Clears a f := by
  by_cases hquiet : op.isQuiet = true
  · rw [(Op.quiet_apply hquiet f).currentAttempt]
    exact .inl h
  cases op with
  | registerAdapter d =>
    obtain ⟨_, _, he⟩ := registerAdapter_frame f d
    simp only [Op.apply, he]
    exact .inl h
  | createInstance adapter worker boot device bytes rng =>
    obtain ⟨_, _, he⟩ := createInstance_frame f adapter worker boot device bytes rng
    simp only [Op.apply, he]
    exact .inl h
  | bindAuthority id fence => exact .inl (bindAuthority_attempt hop h)
  | onWorkerDown id =>
    rcases revokeWhere_attempt_cases (fun fence => fence.worker = id) h with hkept | ⟨ar, har, hl⟩
    · exact .inl hkept
    · exact .inr ⟨ar, har, of_decide_eq_true hl⟩
  | onWorkerRestart id boot =>
    rcases revokeWhere_attempt_cases (fun fence => fence.worker = id ∧ fence.boot ≠ boot) h with
      hkept | ⟨ar, har, hl⟩
    · exact .inl hkept
    · exact .inr ⟨ar, har, of_decide_eq_true hl⟩
  | registerWorker rec => exact .inl h
  | invalidate id trigger reason => exact .inl h
  | advanceEpoch => exact .inl h
  | recover s => exact .inl h
  | setLifecycle id s => exact .inl h
  | _ => exact absurd rfl hquiet

end Step

/-- Between two successful binds under `a` of fences with different attempts, some operation has
cleared the authority record of `a`. -/
theorem attempt_fenced {f : Fabric} {a : AdapterId} {pre mid : List Op} {F G : AuthorityFence}
    (hG : G.adapter = a) (hmid : ∀ op ∈ mid, op.KeyedAt a) (hbindF : (run pre f).Binds a F)
    (hbindG : (run (pre ++ .bindAuthority a F :: mid) f).Binds a G)
    (hne : F.attempt ≠ G.attempt) :
    ∃ mid₁ op mid₂, mid = mid₁ ++ op :: mid₂ ∧
      op.Clears a (run (pre ++ .bindAuthority a F :: mid₁) f) := by
  have hrun (ops : List Op) : run (pre ++ .bindAuthority a F :: ops) f =
      run ops ((run pre f).bindAuthority a F).2 := run_append _ _ f
  have hstart := hbindF.attempt
  rcases Run.exec_until (P := fun g : Fabric => g.currentAttempt[a.str]? = some F.attempt)
      (C := Op.Clears a) (fun op ho g hg => attempt_kept (hmid op ho) hg) hstart with
    hend | ⟨mid₁, op, mid₂, hsplit, hclears⟩
  · -- the attempt of `F` is still there, so `G` could not have been authorized
    obtain ⟨d, w, hc⟩ := checkFence_authorized.mp hbindG.authorized
    have hattempt : F.attempt = G.attempt := by
      refine hc.attempt F.attempt ?_
      rw [hG, hrun]
      exact hend
    exact absurd hattempt hne
  · exact ⟨mid₁, op, mid₂, hsplit, by rw [hrun]; exact hclears⟩

/-! ### A run in which the worker of the bound fence restarts -/

def restartedWorker : WorkerRecord := { sampleWorker with boot := ⟨.ofBytes [7]⟩ }

def restartOps : List Op := [
  .registerWorker restartedWorker,
  .onWorkerRestart restartedWorker.id restartedWorker.boot]

/-- The fence of a second attempt, under the new boot. -/
def secondFence : AuthorityFence :=
  { sampleFence with boot := restartedWorker.boot, attempt := ⟨.ofBytes [8]⟩ }

theorem binds_of_lookup {f : Fabric} {id : AdapterId} {F : AuthorityFence}
    (h : (f.bindAuthority id F).1 = .ok ⟨.authorized, ascii "fence current"⟩) : f.Binds id F :=
  ⟨_, h, rfl⟩

theorem attempt_fenced_sample :
    ∃ mid₁ op mid₂, restartOps = mid₁ ++ op :: mid₂ ∧ op.Clears sampleAdapter.id
      (run (sampleOps.take 3 ++ .bindAuthority sampleAdapter.id sampleFence :: mid₁) .default) := by
  have hmid : ∀ op ∈ restartOps, op.KeyedAt sampleAdapter.id := by
    simp [restartOps, Op.KeyedAt]
  exact attempt_fenced (G := secondFence) rfl hmid (binds_of_lookup (by decide +kernel))
    (binds_of_lookup (by decide +kernel)) (by decide +kernel)

end Fabric

end AdapterFabric
