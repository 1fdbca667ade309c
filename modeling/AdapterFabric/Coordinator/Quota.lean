import AdapterFabric.Capacity.Calls
import AdapterFabric.Coordinator.Accounting
import AdapterFabric.Coordinator.Provenance

/-!
# AdapterFabric.Coordinator.Quota

The accountant of a coordinator that runs: the limits it was constructed with stay, and what it
accounts it accounts in device memory, for loads that were acknowledged.

* `Section.capacity_cases`: which calls of the accountant the coordinator makes.
* `quota_exact`: in every interleaving the books are exact and within the limits of the constructor.
* `quota_inert`: a coordinator without a limit for device memory, such as the ones that the
  executables make, accounts nothing.
* `quota_counts_loads`: with workers of the repository, the bytes in use are at most the loads that
  workers have handled, whatever the adapters declare.
-/

namespace AdapterFabric

open Std

theorem Fabric.capacity_run {ops : List Fabric.Op} (h : ∀ op ∈ ops, op.accounts = false)
    (f : Fabric) : (Fabric.run ops f).capacity = f.capacity :=
  Run.exec_preserves (P := fun f' : Fabric => f'.capacity = f.capacity)
    (fun op hop _ he => ((Fabric.books_frame op _).1 (h op hop)).trans he) rfl

namespace Coordinator

/-- The call of the accountant that a section makes, if it makes one. -/
theorem Section.capacity_cases (sec : Section) (s : Shared) :
    (sec.run s).2.fabric.capacity = s.fabric.capacity ∨
    (∃ inst bytes, sec = .markReady inst bytes ∧ (sec.run s).2.fabric.capacity =
      (s.fabric.capacity.reserve .deviceMemory bytes inst.str).2) ∨
    ∃ (inst : AdapterInstanceId) (bytes : UInt64), (sec.run s).2.fabric.capacity =
      (s.fabric.capacity.release .deviceMemory bytes inst.str).2 := by
  have hquiet (h : ∀ op ∈ sec.ops s, op.accounts = false) :
      (sec.run s).2.fabric.capacity = s.fabric.capacity := by
    rw [sec.run_refines]
    exact Fabric.capacity_run h _
  cases sec with
  | markReady inst bytes => exact .inr (.inl ⟨inst, bytes, rfl, rfl⟩)
  | evict inst =>
    obtain ⟨residencies, he⟩ := Fabric.evict_cases s.fabric inst
    by_cases hdone : (s.fabric.evict inst).1.1 = true
    · refine .inr (.inr ⟨inst, ((s.fabric.residency inst).map (·.bytes)).getD 0, ?_⟩)
      simp only [Section.run, hdone, if_true, he]
      rfl
    · exact .inl (hquiet (by simp [Section.ops, hdone, Fabric.Op.accounts]))
  | pin text =>
    refine .inl (hquiet ?_)
    simp only [Section.ops]
    split <;> simp [Fabric.Op.accounts]
  | unpin text =>
    refine .inl (hquiet ?_)
    simp only [Section.ops]
    split <;> simp [Fabric.Op.accounts]
  | _ => exact .inl (hquiet (by simp [Section.ops, Fabric.Op.accounts]))

/-! ## Limits -/

/-- The books are exact, within `limits`, and about device memory. -/
structure Metered (limits : ExtTreeMap ResidencyLocation UInt64 ResidencyLocation.cmp)
    (c : CapacityAccountant) : Prop where
  exact_ : c.Exact
  limit : ∀ loc, c.limit loc = (CapacityAccountant.ofLimits limits).limit loc
  elsewhere : ∀ loc, loc ≠ .deviceMemory → c.usedAt loc = 0

section Metered

variable {limits : ExtTreeMap ResidencyLocation UInt64 ResidencyLocation.cmp}
  {c : CapacityAccountant}

theorem metered_ofLimits (limits) : Metered limits (.ofLimits limits) :=
  ⟨CapacityAccountant.exact_constructed (.ofLimits limits), fun _ => rfl,
    fun loc _ => CapacityAccountant.used_constructed (.ofLimits limits) loc⟩

theorem Metered.reserve (h : Metered limits c) (bytes : UInt64) (owner : Bytes) :
    Metered limits (c.reserve .deviceMemory bytes owner).2 := by
  have hexact := h.exact_.reserve .deviceMemory bytes owner
  rcases c.reserve_cases .deviceMemory owner bytes with ⟨-, -, he⟩ | ⟨-, -, he⟩
  · rw [he] at hexact ⊢
    exact ⟨hexact, h.limit, h.elsewhere⟩
  · rw [he] at hexact ⊢
    refine ⟨hexact, fun loc => h.limit loc, fun loc hloc => ?_⟩
    rw [CapacityAccountant.usedAt_transferred, if_neg hloc.symm]
    exact h.elsewhere loc hloc

theorem Metered.release (h : Metered limits c) (bytes : UInt64) (owner : Bytes) :
    Metered limits (c.release .deviceMemory bytes owner).2 := by
  have hexact := h.exact_.release .deviceMemory bytes owner
  rcases c.release_cases .deviceMemory owner bytes with ⟨-, he⟩ | ⟨-, -, he⟩
  · rw [he] at hexact ⊢
    exact ⟨hexact, h.limit, h.elsewhere⟩
  · rw [he] at hexact ⊢
    refine ⟨hexact, fun loc => h.limit loc, fun loc hloc => ?_⟩
    rw [CapacityAccountant.usedAt_transferred, if_neg hloc.symm]
    exact h.elsewhere loc hloc

theorem Metered.move {s s' : Server} {a : Action} (hm : Server.Move s a s')
    (h : Metered limits s.shared.fabric.capacity) : Metered limits s'.shared.fabric.capacity := by
  rcases hm.fabric_cases with he | ⟨c, sec, k, hh, he⟩ | ⟨msg, he⟩ | ⟨id, he⟩
  · rwa [he]
  · rw [he]
    rcases sec.capacity_cases s.shared with he | ⟨inst, bytes, -, he⟩ | ⟨inst, bytes, he⟩
    · rwa [he]
    · rw [he]
      exact h.reserve bytes inst.str
    · rw [he]
      exact h.release bytes inst.str
  · rw [he, Books.wkRegister_capacity]
    exact h
  · rw [he]
    exact h

theorem Metered.unused (h : Metered limits c)
    (hzero : (CapacityAccountant.ofLimits limits).limit .deviceMemory = 0)
    (loc : ResidencyLocation) : c.usedAt loc = 0 := by
  by_cases hloc : loc = .deviceMemory
  · subst hloc
    have hle := (h.exact_ .deviceMemory).2
    rw [h.limit, hzero] at hle
    exact UInt64.le_zero_iff.mp hle
  · exact h.elsewhere loc hloc

end Metered

namespace Server

/-- A coordinator that has just been constructed with `limits`. -/
def ofLimits (limits : ExtTreeMap ResidencyLocation UInt64 ResidencyLocation.cmp) (rng : Rng) :
    Server :=
  { shared := { fabric := .ofLimits limits, rng } }

variable {limits : ExtTreeMap ResidencyLocation UInt64 ResidencyLocation.cmp} {rng : Rng}
  {as : List Action} {s : Server}

theorem Steps.metered (h : Run.Steps Step (ofLimits limits rng) as s) :
    Metered limits s.shared.fabric.capacity :=
  h.preserves (P := fun s : Server => Metered limits s.shared.fabric.capacity)
    (fun hs hc => hc.move (act_move hs)) (metered_ofLimits limits)

/-- Whatever clients and workers send and in whatever order the handlers take their steps, what is
in use is what the owners hold, and within the limits that the coordinator was constructed with. -/
theorem quota_exact (h : Run.Steps Step (ofLimits limits rng) as s) (loc : ResidencyLocation) :
    (s.shared.fabric.capacity.usedAt loc).toNat = s.shared.fabric.capacity.heldSum loc ∧
      s.shared.fabric.capacity.usedAt loc ≤ (CapacityAccountant.ofLimits limits).limit loc ∧
      (loc ≠ .deviceMemory → s.shared.fabric.capacity.heldSum loc = 0) := by
  have hc := Steps.metered h
  obtain ⟨hused, hle⟩ := hc.exact_ loc
  refine ⟨hused, hc.limit loc ▸ hle, fun hloc => ?_⟩
  rw [← hused, hc.elsewhere loc hloc]
  rfl

/-- Without a limit for device memory nothing is ever in use, and this is what clients are told. -/
theorem quota_inert (hzero : (CapacityAccountant.ofLimits limits).limit .deviceMemory = 0)
    (h : Run.Steps Step (ofLimits limits rng) as s) :
    s.shared.fabric.capacity.isClean = true ∧
      (∀ loc owner, s.shared.fabric.capacity.heldBy loc owner = 0) ∧
      (Section.capacity.run s.shared).1 = ascii ("device_memory=0 pinned_host=0 pageable_host=0 " ++
        "process_local=0 node_local=0 persistent_storage=0") := by
  have hc := Steps.metered h
  have hunused := hc.unused hzero
  have hclean := CapacityAccountant.isClean_iff_used.mpr hunused
  refine ⟨hclean, hc.exact_.isClean_iff.mp hclean, ?_⟩
  show Section.capacityText s.shared.fabric.capacity = _
  simp only [Section.capacityText, hunused]
  decide

/-! ### A load -/

def loadAck : Message := { type := .wkLoadAck, reqId := 1, ok := true, a := 5 }

/-- A worker registers, and a client registers an adapter and loads it; the worker acknowledges five
bytes. -/
def acknowledgedLoad : List Action :=
  joins 0 workerRegistration ++
    [.accept 1, .peer 1 (encodeMessage adapterRequest), .read 1, .advance 1, .send 1 true,
      .peer 1 (encodeMessage loadRequest), .read 1, .advance 1, .advance 1, .advance 1, .advance 1,
      .advance 1, .advance 1, .send 1 true, .reply 0 0 (encodeMessage loadAck), .read 0, .advance 0,
      .advance 0, .advance 1, .advance 1, .advance 1]

def eightBytes : ExtTreeMap ResidencyLocation UInt64 ResidencyLocation.cmp :=
  (∅ : ExtTreeMap ResidencyLocation UInt64 ResidencyLocation.cmp).insert .deviceMemory 8

theorem quota_exact_sample : ∃ s, Run.Steps Step (ofLimits eightBytes .instanceInit)
    acknowledgedLoad s ∧ s.shared.fabric.capacity.heldSum .deviceMemory = 5 := by
  obtain ⟨s, hs, hused⟩ : ∃ s : Server, Run.tryExec act acknowledgedLoad
      (ofLimits eightBytes .instanceInit) = some s ∧
      s.shared.fabric.capacity.usedAt .deviceMemory = 5 :=
    Run.exists_tryExec (by decide +kernel)
  have hrun := Run.Steps.of_tryExec hs
  refine ⟨s, hrun, ?_⟩
  rw [← (quota_exact hrun .deviceMemory).1, hused]
  rfl

theorem quota_inert_sample : ∃ s, Run.Steps Step (ofLimits ∅ .instanceInit) acknowledgedLoad s ∧
    s.shared.fabric.capacity.isClean = true := by
  obtain ⟨s, hs, -⟩ : ∃ s : Server, Run.tryExec act acknowledgedLoad
      (ofLimits ∅ .instanceInit) = some s ∧ True :=
    Run.exists_tryExec (by decide +kernel)
  have hrun := Run.Steps.of_tryExec hs
  exact ⟨s, hrun, (quota_inert (by decide) hrun).1⟩

end Server

/-! ## What is held -/

/-- What an owner holds in device memory was granted to it. -/
def HeldAs (A : Bytes → UInt64 → Prop) (c : CapacityAccountant) : Prop :=
  ∀ owner, c.heldBy .deviceMemory owner ≠ 0 →
    ∃ bytes, A owner bytes ∧ c.heldBy .deviceMemory owner ≤ bytes

section HeldAs

variable {A A' : Bytes → UInt64 → Prop} {c : CapacityAccountant}

theorem HeldAs.imp (h : HeldAs A c) (hA : ∀ owner bytes, A owner bytes → A' owner bytes) :
    HeldAs A' c := by
  intro owner howner
  obtain ⟨bytes, hbytes, hle⟩ := h owner howner
  exact ⟨bytes, hA owner bytes hbytes, hle⟩

theorem HeldAs.touched (h : HeldAs A c) (loc : ResidencyLocation) (owner : Bytes) :
    HeldAs A (c.touched loc owner) := by
  intro owner' hheld
  rw [CapacityAccountant.heldBy_touched] at hheld ⊢
  exact h owner' hheld

theorem HeldAs.transferred (h : HeldAs A c) {owner : Bytes} {used held : UInt64}
    (hnew : held ≠ 0 → ∃ bytes, A owner bytes ∧ held ≤ bytes) :
    HeldAs A (c.transferred .deviceMemory owner used held) := by
  intro owner' hheld
  rw [CapacityAccountant.heldBy_transferred] at hheld ⊢
  by_cases howner : owner = owner'
  · subst howner
    rw [if_pos ⟨rfl, rfl⟩] at hheld ⊢
    exact hnew hheld
  · rw [if_neg fun h => howner h.2] at hheld ⊢
    exact h owner' hheld

theorem HeldAs.reserve (h : HeldAs A c) {bytes : UInt64} {owner : Bytes} (hnew : A owner bytes) :
    HeldAs A (c.reserve .deviceMemory bytes owner).2 := by
  rcases c.reserve_cases .deviceMemory owner bytes with ⟨-, -, he⟩ | ⟨-, -, he⟩
  · rw [he]
    exact h.touched _ _
  · rw [he]
    exact h.transferred fun _ => ⟨bytes, hnew, UInt64.le_refl bytes⟩

theorem HeldAs.release (h : HeldAs A c) (bytes : UInt64) (owner : Bytes) :
    HeldAs A (c.release .deviceMemory bytes owner).2 := by
  rcases c.release_cases .deviceMemory owner bytes with ⟨-, he⟩ | ⟨hheld, hle, he⟩
  · rw [he]
    exact h.touched _ _
  · rw [he]
    refine h.transferred fun _ => ?_
    obtain ⟨granted, hgranted, hbound⟩ := h owner hheld
    have hless : c.heldBy .deviceMemory owner - bytes ≤ c.heldBy .deviceMemory owner := by
      rw [UInt64.le_iff_toNat_le, UInt64.toNat_sub_of_le _ _ hle]
      omega
    exact ⟨granted, hgranted, UInt64.le_trans hless hbound⟩

end HeldAs

namespace Server

/-- Whatever is held was granted to a load that the worker acknowledged. -/
theorem heldAs_move {V : AuthorityFence → Prop} {s s' : Server} {a : Action} (hm : Move s a s')
    (hloads : s.Loads V) (h : HeldAs (LoadAcked s.history) s.shared.fabric.capacity) :
    HeldAs (LoadAcked s'.history) s'.shared.fabric.capacity := by
  have hkeep : HeldAs (LoadAcked s'.history) s.shared.fabric.capacity := by
    refine h.imp fun owner bytes hacked => ?_
    obtain ⟨r, hr, hload⟩ := hacked
    exact ⟨r, hm.returned r hr, hload⟩
  rcases hm.fabric_cases with he | ⟨c, sec, k, hh, he⟩ | ⟨msg, he⟩ | ⟨id, he⟩
  · rwa [he]
  · rw [he]
    rcases sec.capacity_cases s.shared with he | ⟨inst, bytes, rfl, he⟩ | ⟨inst, bytes, he⟩
    · rwa [he]
    · rw [he]
      obtain ⟨g, hg, hp⟩ := hloads.obeys c _ hh
      obtain ⟨rfl, -⟩ : g = .acked inst.str bytes ∧ _ := hp
      obtain ⟨r, hr, hload⟩ : LoadAcked s.history inst.str bytes := hg
      exact hkeep.reserve ⟨r, hm.returned r hr, hload⟩
    · rw [he]
      exact hkeep.release bytes inst.str
  · rw [he, Books.wkRegister_capacity]
    exact hkeep
  · rw [he]
    exact hkeep

theorem Initial.heldAs {s : Server} (h : Initial s) :
    HeldAs (LoadAcked s.history) s.shared.fabric.capacity := by
  obtain ⟨limits, rng, rfl⟩ := h
  intro owner hheld
  exact absurd rfl hheld

end Server

namespace Deployment

variable {d d₀ : Deployment} {as : List Action}

theorem Steps.heldAs (h₀ : Initial d₀) (h : Run.Steps Step d₀ as d) :
    HeldAs (LoadAcked d.server.history) d.server.shared.fabric.capacity := by
  have hloads : d₀.server.Loads fun _ => True := h₀.sound.loads
  obtain ⟨s, hs, rfl⟩ := h₀
  refine (Steps.server (P := fun s => s.Loads (fun _ => True) ∧
    HeldAs (LoadAcked s.history) s.shared.fabric.capacity) ⟨s, hs, rfl⟩ h ⟨hloads, hs.heldAs⟩
    fun hm hs => ?_).2
  exact ⟨hs.1.move hm fun _ _ => trivial, Server.heldAs_move hm hs.1 hs.2⟩

theorem Steps.exact_ (h₀ : Initial d₀) (h : Run.Steps Step d₀ as d) :
    d.server.shared.fabric.capacity.Exact := by
  obtain ⟨s, ⟨limits, rng, rfl⟩, rfl⟩ := h₀
  exact (Steps.server (P := fun s => Metered limits s.shared.fabric.capacity)
    ⟨_, ⟨limits, rng, rfl⟩, rfl⟩ h (metered_ofLimits limits) fun hm hs => hs.move hm).exact_

/-- With workers of the repository, an instance holds at most one byte, whatever its adapter
declares, and only if a worker has handled its load; so the bytes in use are at most the loads that
were handled. -/
theorem quota_counts_loads (h₀ : Initial d₀) (h : Run.Steps Step d₀ as d)
    (hissued : d.server.history.issued.length < 2 ^ 64) :
    (∀ owner, d.server.shared.fabric.capacity.heldBy .deviceMemory owner ≠ 0 →
      d.server.shared.fabric.capacity.heldBy .deviceMemory owner = 1 ∧
        ∃ x ∈ d.handled, x.cmd.type = .wkLoad ∧ x.cmd.text2 = owner) ∧
    (d.server.shared.fabric.capacity.usedAt .deviceMemory).toNat ≤
      (d.handled.filter (·.cmd.type = .wkLoad)).length := by
  have hheld (owner : Bytes)
      (howner : d.server.shared.fabric.capacity.heldBy .deviceMemory owner ≠ 0) :
      d.server.shared.fabric.capacity.heldBy .deviceMemory owner = 1 ∧
        ∃ x ∈ d.handled, x.cmd.type = .wkLoad ∧ x.cmd.text2 = owner := by
    obtain ⟨bytes, hacked, hle⟩ := Steps.heldAs h₀ h owner howner
    obtain ⟨rfl, hx⟩ := Steps.acked h₀ h hissued hacked
    refine ⟨UInt64.toNat_inj.mp ?_, hx⟩
    have hpos : (d.server.shared.fabric.capacity.heldBy .deviceMemory owner).toNat ≠ 0 :=
      fun hzero => howner (UInt64.toNat_inj.mp hzero)
    have hle := UInt64.le_iff_toNat_le.mp hle
    rw [UInt64.toNat_one] at hle ⊢
    omega
  refine ⟨hheld, ?_⟩
  rw [(Steps.exact_ h₀ h .deviceMemory).1, ← List.length_map (fun x : Handled => x.cmd.text2)]
  have hentry (k : HoldKey) (v : UInt64)
      (hv : d.server.shared.fabric.capacity.held[k]? = some v)
      (hne : (if k.1 = .deviceMemory then v.toNat else 0) ≠ 0) :
      k.1 = .deviceMemory ∧ v = d.server.shared.fabric.capacity.heldBy .deviceMemory k.2 ∧
        v ≠ 0 := by
    split at hne
    · rename_i hloc
      refine ⟨hloc, ?_, fun hzero => hne (by rw [hzero]; rfl)⟩
      obtain ⟨loc, owner⟩ := k
      cases hloc
      rw [CapacityAccountant.heldBy, hv]
      rfl
    · exact absurd rfl hne
  refine Table.sum_le_length _ Prod.snd (fun k v hv => ?_) (fun k v hv hne => ?_)
    fun k v k' v' hv hne hv' hne' hmark => ?_
  · by_cases hne : (if k.1 = .deviceMemory then v.toNat else 0) = 0
    · omega
    · obtain ⟨-, rfl, hzero⟩ := hentry k v hv hne
      rw [(hheld k.2 hzero).1]
      split <;> simp
  · obtain ⟨-, rfl, hzero⟩ := hentry k v hv hne
    obtain ⟨x, hx, hload, howner⟩ := (hheld k.2 hzero).2
    exact List.mem_map.mpr ⟨x, List.mem_filter.mpr ⟨hx, by simpa using hload⟩, howner⟩
  · exact Prod.ext ((hentry k v hv hne).1.trans (hentry k' v' hv' hne').1.symm) hmark

open Server (eightBytes)

theorem quota_counts_loads_sample : ∃ d, Run.Steps Step
    { server := .ofLimits eightBytes .instanceInit } loadsOnce d ∧
    d.server.shared.fabric.capacity.heldBy .deviceMemory processInstance.str = 1 ∧
    (d.server.shared.fabric.capacity.usedAt .deviceMemory).toNat ≤
      (d.handled.filter (·.cmd.type = .wkLoad)).length := by
  obtain ⟨d, hd, hissued, hheld⟩ : ∃ d : Deployment, Run.tryExec act loadsOnce
      { server := .ofLimits eightBytes .instanceInit } = some d ∧
      d.server.history.issued.length < 2 ^ 64 ∧
      d.server.shared.fabric.capacity.heldBy .deviceMemory processInstance.str ≠ 0 :=
    Run.exists_tryExec (by decide +kernel)
  have hrun := Run.Steps.of_tryExec hd
  have hinit : Initial { server := .ofLimits eightBytes .instanceInit } :=
    ⟨_, ⟨eightBytes, .instanceInit, rfl⟩, rfl⟩
  obtain ⟨hholds, hused⟩ := quota_counts_loads hinit hrun hissued
  exact ⟨d, hrun, (hholds _ hheld).1, hused⟩

end Deployment

end Coordinator

end AdapterFabric
