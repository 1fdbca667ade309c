import AdapterFabric.Fabric.Residency
import AdapterFabric.Identity.Text
import AdapterFabric.Lib.EncodedKeys

/-!
# AdapterFabric.Fabric.Keys

The keys of the Fabric's maps.

* `run_canonicalKeys`: after any operations, every key of every map is the text of an identity.
* `str_faithful_key`: what the parser accepts and what it returns, and that maps keyed by `str()`
  are maps keyed by the identities.
-/

namespace AdapterFabric

open EncodedKeys

namespace Fabric

/-- Every key of every map is the text of an identity of the map's own type. -/
structure CanonicalKeys (f : Fabric) : Prop where
  adapters : Canonical (Id.str : AdapterId → Bytes) f.adapters
  compositions : Canonical (Id.str : CompositionId → Bytes) f.compositions
  workers : Canonical (Id.str : WorkerId → Bytes) f.workers
  authority : Canonical (Id.str : AdapterId → Bytes) f.authority
  residencies : Canonical (Id.str : AdapterInstanceId → Bytes) f.residencies
  currentAttempt : Canonical (Id.str : AdapterId → Bytes) f.currentAttempt

theorem Fresh.canonicalKeys {f : Fabric} (h : Fresh f) : f.CanonicalKeys := by
  cases h <;> exact ⟨.empty, .empty, .empty, .empty, .empty, .empty⟩

theorem CanonicalKeys.revokeWhere {f : Fabric} (h : f.CanonicalKeys)
    (lost : AuthorityFence → Bool) : (f.revokeWhere lost).CanonicalKeys :=
  { h with authority := h.authority.map _, currentAttempt := h.currentAttempt.eraseAll _ }

theorem CanonicalKeys.apply {f : Fabric} (h : f.CanonicalKeys) (op : Op) :
    (op.apply f).CanonicalKeys := by
  cases op with
  | registerAdapter d =>
    rcases registerAdapter_cases f d with ⟨_, e, he⟩ | ⟨_, he⟩
    · simpa only [Op.apply, he] using h
    · simp only [Op.apply, he]
      exact { h with adapters := h.adapters.insert d.id _ }
  | publishComposition ordered policy rng =>
    rcases publishComposition_cases f ordered policy rng with he | ⟨c, he⟩
    · simpa only [Op.apply, he] using h
    · simp only [Op.apply, he]
      exact { h with compositions := h.compositions.insert c.id c }
  | registerWorker rec => exact { h with workers := h.workers.insert rec.id rec }
  | createInstance adapter worker boot device bytes rng =>
    cases hd : f.adapter adapter with
    | none => simpa only [Op.apply, createInstance_none worker boot device bytes rng hd] using h
    | some d =>
      simp only [Op.apply, createInstance_some worker boot device bytes rng hd]
      exact { h with
        residencies := h.residencies.insert (drawn rng) _
        authority := h.authority.insert adapter _ }
  | bindAuthority id fence =>
    rcases bindAuthority_cases f id fence with he | ⟨ar, _, _, _, he⟩
    · simpa only [Op.apply, he] using h
    · simp only [Op.apply, he]
      exact { h with
        authority := h.authority.insert id _
        currentAttempt := h.currentAttempt.insert id _ }
  | invalidate id trigger reason => exact { h with authority := h.authority.modify _ _ }
  | evict inst =>
    simp only [Op.apply, evict]
    split
    · exact h
    · split
      · exact h
      · split
        · exact h
        · exact { h with residencies := h.residencies.erase _ }
  | pin inst =>
    simp only [Op.apply, pin_eq]
    exact { h with residencies := h.residencies.modify _ _ }
  | unpin inst =>
    simp only [Op.apply, unpin_eq]
    exact { h with residencies := h.residencies.modify _ _ }
  | advanceEpoch => exact { h with }
  | onWorkerDown id =>
    have hrev := h.revokeWhere fun fence => fence.worker = id
    exact { hrev with
      residencies := hrev.residencies.map _
      workers := hrev.workers.modify _ _ }
  | onWorkerRestart id boot =>
    have hrev := h.revokeWhere fun fence => fence.worker = id ∧ fence.boot ≠ boot
    exact { hrev with residencies := hrev.residencies.map _ }
  | recover s =>
    exact { h with
      adapters := Canonical.empty.insertAll _
      compositions := Canonical.empty.insertAll _
      workers := Canonical.empty.insertAll _ }
  | markReady inst bytes => exact { h with residencies := h.residencies.modify _ _ }
  | setLifecycle id s => exact { h with authority := h.authority.modify _ _ }
  | reserveCapacity loc bytes owner => exact { h with }
  | releaseCapacity loc bytes owner => exact { h with }

theorem run_canonicalKeys {f : Fabric} (h : f.CanonicalKeys) (ops : List Op) :
    (run ops f).CanonicalKeys :=
  Run.exec_preserves (fun op _ _ hf => hf.apply op) h

end Fabric

open Fabric

theorem str_faithful_key :
    (∀ s : Bytes, Uuid.scan s = some (Uuid.parse s)) ∧
    (∀ s : Bytes, (∃ u, Uuid.parse s = .ok u) ↔ Uuid.IsText s) ∧
    (∀ u : Uuid, Uuid.parse u.str = .ok u) ∧
    (∀ (s : Bytes) (u : Uuid), Uuid.parse s = .ok u → u.str = s.map Uuid.lower) ∧
    Function.Injective Uuid.str ∧
    (∀ (tag : IdTag) (α : Type) (ws : List (Write (Id tag) α)) (t : StrMap α),
      view Id.str (Run.exec (Write.onTable Id.str) ws t) =
        Run.exec Write.onView ws (view Id.str t)) ∧
    (∀ (tag : IdTag) (α : Type) (t u : StrMap α), Canonical (Id.str : Id tag → Bytes) t →
      Canonical (Id.str : Id tag → Bytes) u →
      (view (Id.str : Id tag → Bytes) t = view Id.str u ↔ t = u)) ∧
    ∀ (f : Fabric) (ops : List Op), Fresh f → (run ops f).CanonicalKeys := by
  refine ⟨Uuid.scan_eq_parse, Uuid.parse_ok_iff, Uuid.parse_str, fun s u h => ?_,
    fun u v h => Uuid.str_inj h, fun tag α ws t => ?_, fun tag α t u ht hu => ?_,
    fun f ops h => run_canonicalKeys h.canonicalKeys ops⟩
  · exact (Uuid.parse_eq_ok_iff.mp h).symm
  · exact view_exec (fun i j h => Id.str_inj h) ws t
  · exact ⟨fun h => ht.ext hu h, fun h => h ▸ rfl⟩

theorem str_faithful_key_mixed_case :
    (Uuid.ofBytes [0x6B, 0xA7, 0xB8, 0x10, 0x9D, 0xAD, 0x11, 0xD1, 0x80, 0xB4, 0x00, 0xC0, 0x4F,
      0xD4, 0x30, 0xC8]).str = ascii "6ba7b810-9dad-11d1-80b4-00c04fd430c8" ∧
      (Fabric.run [.recover {}] .default).CanonicalKeys :=
  ⟨(str_faithful_key.2.2.2.1 (ascii "6BA7B810-9DAD-11d1-80B4-00C04FD430C8") _
      (by decide +kernel)).trans (by decide +kernel),
    str_faithful_key.2.2.2.2.2.2.2 _ _ .default⟩

end AdapterFabric
