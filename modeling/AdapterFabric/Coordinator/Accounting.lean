import AdapterFabric.Coordinator.Cluster

/-!
# AdapterFabric.Coordinator.Accounting

What the coordinator accounts for the adapters that were loaded and not evicted since.

* `Books.act_moves`: a step moves nothing, reserves one byte for a load, or releases what the
  residency of an evicted instance says.
* `Books.tracked_iff`: so the account is exact, and loads that do not fit are refused, exactly when
  each acknowledged load is of one byte and fits, and each evicted load says so still.
-/

namespace AdapterFabric

namespace Coordinator

open Ctl (nextInstance created)
open Cluster (Passes Free)

/-- A coordinator with its workers, and the loads that were answered ok and not evicted since, each
with the memory that its adapter declared then. -/
structure Books where
  cluster : Cluster
  loads : List (AdapterInstanceId × UInt64) := []

namespace Books

/-! ## Steps -/

/-- Workers come, and adapters are registered, loaded and evicted. -/
def Taken : Cluster.Action → Prop
  | .attach _ => True
  | .request req =>
    req.type = .ctlRegisterAdapter ∨ req.type = .ctlLoad ∨ req.type = .ctlEvict

instance : DecidablePred Taken
  | .attach _ => inferInstanceAs (Decidable True)
  | .request _ => inferInstanceAs (Decidable (_ ∨ _ ∨ _))

/-- The memory that the adapter declares, if it is registered. -/
def declared (s : Books) (id : AdapterId) : UInt64 :=
  ((s.cluster.shared.fabric.adapter id).map (·.memoryBytes)).getD 0

/-- The loads on record once `req` was answered with `out`. -/
def record (s : Books) (req out : Message) : List (AdapterInstanceId × UInt64) :=
  if out.ok = false then s.loads
  else if req.type = .ctlLoad then
    match mustParse out.text2, decodeFence req.payload with
    | .ok inst, .ok fence => (inst, s.declared fence.adapter) :: s.loads.filter (·.1 ≠ inst)
    | _, _ => s.loads
  else if req.type = .ctlEvict then
    match mustParse req.text with
    | .ok inst => s.loads.filter (·.1 ≠ inst)
    | .error _ => s.loads
  else s.loads

def apply (s : Books) (a : Cluster.Action) : Books where
  cluster := s.cluster.apply a
  loads :=
    match a with
    | .attach _ => s.loads
    | .request req => s.record req (s.cluster.request req).1

def act (s : Books) (a : Cluster.Action) : Option Books :=
  if Taken a then some (s.apply a) else none

def Initial (s : Books) : Prop := Cluster.Initial s.cluster ∧ s.loads = []

/-! ## Properties -/

def account (s : Books) : Account := s.cluster.shared.fabric.capacity.account .deviceMemory

/-- What is used is what the loads on record declared, and within the limit. -/
def Balanced (s : Books) : Prop :=
  s.account.used.toNat = (s.loads.map (·.2.toNat)).sum ∧
    s.account.used.toNat ≤ s.account.limit.toNat

instance : DecidablePred Balanced := fun _ => inferInstanceAs (Decidable (_ ∧ _))

/-- A load that does not fit is not answered ok. -/
def Declines (s : Books) : Cluster.Action → Prop
  | .attach _ => True
  | .request req => req.type = .ctlLoad → ∀ fence ∈ (decodeFence req.payload).toOption,
    s.account.limit.toNat < s.account.used.toNat + (s.declared fence.adapter).toNat →
    (s.cluster.request req).1.ok = false

instance (s : Books) : DecidablePred s.Declines
  | .attach _ => inferInstanceAs (Decidable True)
  | .request _ => inferInstanceAs (Decidable (_ → _))

/-- A load that gets to its worker is of an adapter of one byte, and there is room for it; an
instance on record that is evicted has one byte. -/
structure Room (s : Books) (req : Message) : Prop where
  load : req.type = .ctlLoad → ∀ fence d, Passes s.cluster.shared req fence d →
    req.text2 ∈ s.cluster.workers →
    d.memoryBytes = 1 ∧ s.account.used.toNat < s.account.limit.toNat
  evict : req.type = .ctlEvict → ∀ inst r, mustParse req.text = .ok inst →
    s.cluster.shared.fabric.residency inst = some r → inst ∈ s.loads.map Prod.fst → r.bytes = 1

def Fits (s : Books) (a : Cluster.Action) : Prop := ∀ req, a = .request req → Room s req

/-! ## What a step does to the account -/

section Lists

variable {loads : List (AdapterInstanceId × UInt64)}

theorem map_fst_filter (loads : List (AdapterInstanceId × UInt64)) (inst : AdapterInstanceId) :
    (loads.filter (·.1 ≠ inst)).map Prod.fst = (loads.map Prod.fst).filter (· ≠ inst) := by
  rw [List.filter_map]
  rfl

theorem sum_ones (h : ∀ x ∈ loads, x.2 = 1) : (loads.map (·.2.toNat)).sum = loads.length := by
  induction loads with
  | nil => rfl
  | cons x loads ih =>
    rw [List.map_cons, List.sum_cons, List.length_cons, h x (by simp),
      ih fun y hy => h y (List.mem_cons_of_mem _ hy)]
    exact Nat.add_comm _ _

theorem length_filter_ne (h : (loads.map Prod.fst).Nodup) (inst : AdapterInstanceId) :
    (loads.filter (·.1 ≠ inst)).length =
      if inst ∈ loads.map Prod.fst then loads.length - 1 else loads.length := by
  have herase : (loads.map Prod.fst).erase inst = (loads.map Prod.fst).filter (· ≠ inst) := by
    rw [h.erase_eq_filter]
    refine List.filter_congr fun x _ => ?_
    simp [bne, beq_eq_decide]
  have hlength : (loads.filter (·.1 ≠ inst)).length = ((loads.map Prod.fst).erase inst).length := by
    rw [herase, ← map_fst_filter, List.length_map]
  rw [hlength, List.length_erase, List.length_map]

end Lists

/-- Every load on record holds one byte, and nothing else is held. -/
structure Sound (s : Books) : Prop where
  nodup : (s.loads.map Prod.fst).Nodup
  ones : ∀ x ∈ s.loads, x.2 = 1
  held : ∀ inst : AdapterInstanceId,
    s.account.held inst.str = if inst ∈ s.loads.map Prod.fst then 1 else 0
  used_eq : s.account.used.toNat = s.loads.length
  used_le : s.account.used.toNat ≤ s.account.limit.toNat

section Sound

variable {s t : Books} {inst : AdapterInstanceId}

theorem Sound.balanced (h : Sound s) : Balanced s :=
  ⟨h.used_eq.trans (sum_ones h.ones).symm, h.used_le⟩

theorem Sound.still (h : Sound s) (hacc : t.account = s.account)
    (hids : ∀ k, k ∈ t.loads.map Prod.fst ↔ k ∈ s.loads.map Prod.fst)
    (hnodup : (t.loads.map Prod.fst).Nodup) (hones : ∀ x ∈ t.loads, x.2 = 1)
    (hlength : t.loads.length = s.account.used.toNat) : Sound t := by
  refine ⟨hnodup, hones, fun k => ?_, ?_, ?_⟩
  · rw [hacc, h.held]
    exact if_congr (hids k).symm rfl rfl
  · rw [hacc, hlength]
  · rw [hacc]
    exact h.used_le

theorem Sound.moved {used v : UInt64} (h : Sound s) (hacc : t.account =
      { s.account with used, held := Function.update s.account.held inst.str v })
    (hids : ∀ k, k ≠ inst → (k ∈ t.loads.map Prod.fst ↔ k ∈ s.loads.map Prod.fst))
    (hv : v = if inst ∈ t.loads.map Prod.fst then 1 else 0)
    (hnodup : (t.loads.map Prod.fst).Nodup) (hones : ∀ x ∈ t.loads, x.2 = 1)
    (hlength : used.toNat = t.loads.length) (hle : used.toNat ≤ s.account.limit.toNat) :
    Sound t := by
  refine ⟨hnodup, hones, fun k => ?_, ?_, ?_⟩
  · rw [hacc]
    by_cases hk : k = inst
    · subst hk
      exact (Function.update_self _ _ _).trans hv
    · have hstr : k.str ≠ inst.str := fun e => hk (Id.str_inj e)
      refine (Function.update_of_ne hstr _ _).trans ((h.held k).trans ?_)
      exact if_congr (hids k hk).symm rfl rfl
  · rw [hacc]
    exact hlength
  · rw [hacc]
    exact hle

theorem Sound.ones_filter (h : Sound s) (inst : AdapterInstanceId) :
    ∀ x ∈ s.loads.filter (·.1 ≠ inst), x.2 = 1 :=
  fun x hx => h.ones x (List.mem_of_mem_filter hx)

theorem Sound.length_filter (h : Sound s) :
    (s.loads.filter (·.1 ≠ inst)).length =
      if inst ∈ s.loads.map Prod.fst then s.account.used.toNat - 1 else s.account.used.toNat := by
  rw [length_filter_ne h.nodup, h.used_eq]

theorem length_pos (h : Sound s) (hmem : inst ∈ s.loads.map Prod.fst) :
    0 < s.account.used.toNat := by
  rw [h.used_eq, ← List.length_map (f := Prod.fst)]
  exact List.length_pos_of_mem hmem

theorem used_succ (h : s.account.used.toNat < s.account.limit.toNat) :
    (s.account.used + 1).toNat = s.account.used.toNat + 1 := by
  have := s.account.limit.toNat_lt
  rw [UInt64.toNat_add, UInt64.toNat_one]
  omega

section Evict

variable {b : UInt64} (h : Sound s) (hacc : t.account = s.account.release b inst.str)
  (hloads : t.loads = s.loads.filter (·.1 ≠ inst))
include h hacc hloads

omit hloads in
theorem account_evict : t.account =
    if inst ∈ s.loads.map Prod.fst ∧ b.toNat ≤ 1 then
      { s.account with
        used := s.account.used - b, held := Function.update s.account.held inst.str (1 - b) }
    else s.account := by
  rw [hacc, Account.release, h.held]
  by_cases hold : inst ∈ s.loads.map Prod.fst
  · rw [if_pos hold]
    by_cases hb : b.toNat ≤ 1
    · have hguard : ¬ ((1 : UInt64) = 0 ∨ b > 1) := by
        rintro (h0 | hlt)
        · cases h0
        · exact absurd (UInt64.lt_iff_toNat_lt.mp hlt) (Nat.not_lt.mpr hb)
      rw [if_neg hguard, if_pos ⟨hold, hb⟩]
    · have hguard : (1 : UInt64) = 0 ∨ b > 1 :=
        .inr (UInt64.lt_iff_toNat_lt.mpr (Nat.not_le.mp hb))
      rw [if_pos hguard, if_neg fun hand => hb hand.2]
  · have hguard : (0 : UInt64) = 0 ∨ b > 0 := .inl rfl
    rw [if_neg hold, if_pos hguard, if_neg fun hand => hold hand.1]

theorem one_of_balanced_evict (ht : Balanced t) (hold : inst ∈ s.loads.map Prod.fst) : b = 1 := by
  refine UInt64.toNat_inj.mp ?_
  have hsum := ht.1
  have hpos := length_pos h hold
  rw [hloads, sum_ones (h.ones_filter inst), h.length_filter, if_pos hold,
    account_evict h hacc] at hsum
  by_cases hb : b.toNat ≤ 1
  · rw [if_pos ⟨hold, hb⟩] at hsum
    have hsum : (s.account.used - b).toNat = s.account.used.toNat - 1 := hsum
    rw [UInt64.toNat_sub_of_le _ _ (UInt64.le_iff_toNat_le.mpr (by omega))] at hsum
    rw [UInt64.toNat_one]
    omega
  · rw [if_neg fun hand => hb hand.2] at hsum
    omega

theorem sound_evict (hb : inst ∈ s.loads.map Prod.fst → b = 1) : Sound t := by
  have hids : t.loads.map Prod.fst = (s.loads.map Prod.fst).filter (· ≠ inst) := by
    rw [hloads, map_fst_filter]
  have hmem (k : AdapterInstanceId) :
      k ∈ t.loads.map Prod.fst ↔ k ∈ s.loads.map Prod.fst ∧ k ≠ inst := by
    rw [hids, List.mem_filter, decide_eq_true_iff]
  have hones : ∀ x ∈ t.loads, x.2 = 1 := hloads ▸ h.ones_filter inst
  have hnodup : (t.loads.map Prod.fst).Nodup := hids ▸ h.nodup.filter _
  have hlength : t.loads.length = _ := (congrArg List.length hloads).trans h.length_filter
  have hacc := account_evict h hacc
  by_cases hold : inst ∈ s.loads.map Prod.fst
  · obtain rfl := hb hold
    have hpos := length_pos h hold
    have hle := h.used_le
    rw [if_pos ⟨hold, Nat.le_refl 1⟩] at hacc
    rw [if_pos hold] at hlength
    have hused : (s.account.used - 1).toNat = s.account.used.toNat - 1 :=
      UInt64.toNat_sub_of_le _ _ (UInt64.le_iff_toNat_le.mpr hpos)
    refine h.moved hacc (fun k hk => ?_) ?_ hnodup hones (hused.trans hlength.symm) (by omega)
    · rw [hmem]
      exact and_iff_left hk
    · rw [if_neg fun hk => ((hmem inst).mp hk).2 rfl]
      rfl
  · rw [if_neg fun hand => hold hand.1] at hacc
    rw [if_neg hold] at hlength
    refine h.still hacc (fun k => ?_) hnodup hones hlength
    rw [hmem]
    exact and_iff_left_of_imp fun hk (e : k = inst) => hold (e ▸ hk)

end Evict

section Load

variable {m : UInt64} (h : Sound s) (hacc : t.account = s.account.reserve 1 inst.str)
  (hloads : t.loads = (inst, m) :: s.loads.filter (·.1 ≠ inst))
include h hacc hloads

omit hacc in
theorem sum_load : (t.loads.map (·.2.toNat)).sum = m.toNat +
    if inst ∈ s.loads.map Prod.fst then s.account.used.toNat - 1 else s.account.used.toNat := by
  rw [hloads, List.map_cons, List.sum_cons, sum_ones (h.ones_filter inst), h.length_filter]

omit hloads in
/-- The account moves by one byte, unless the instance holds it already or there is no room. -/
theorem account_load : t.account =
    if inst ∈ s.loads.map Prod.fst ∨ s.account.limit.toNat ≤ s.account.used.toNat then s.account
    else { s.account with
      used := s.account.used + 1, held := Function.update s.account.held inst.str 1 } := by
  rw [hacc, Account.reserve]
  refine if_congr (or_congr ?_ ?_) rfl rfl
  · rw [h.held]
    split <;> simp [*]
  · have := h.used_le
    rw [gt_iff_lt, UInt64.lt_iff_toNat_lt,
      UInt64.toNat_sub_of_le _ _ (UInt64.le_iff_toNat_le.mpr this), UInt64.toNat_one]
    omega

/-- A load of more than one byte, or one without room, unbalances the account. -/
theorem one_of_balanced (hm : m ≠ 0) (ht : Balanced t)
    (hfits : s.account.used.toNat + m.toNat ≤ s.account.limit.toNat) :
    m = 1 ∧ s.account.used.toNat < s.account.limit.toNat := by
  have hm : m.toNat ≠ 0 := fun h0 => hm (UInt64.toNat_inj.mp h0)
  have hroom : s.account.used.toNat < s.account.limit.toNat := by omega
  refine ⟨UInt64.toNat_inj.mp ?_, hroom⟩
  have hsum := ht.1
  rw [sum_load h hloads, account_load h hacc] at hsum
  by_cases hmem : inst ∈ s.loads.map Prod.fst
  · rw [if_pos hmem, if_pos (.inl hmem)] at hsum
    have hpos := length_pos h hmem
    simp only [UInt64.toNat_one]
    omega
  · rw [if_neg hmem, if_neg (not_or.mpr ⟨hmem, Nat.not_le.mpr hroom⟩)] at hsum
    have hsum : (s.account.used + 1).toNat = m.toNat + s.account.used.toNat := hsum
    rw [used_succ hroom] at hsum
    simp only [UInt64.toNat_one]
    omega

theorem sound_load (hm : m = 1) (hroom : s.account.used.toNat < s.account.limit.toNat) :
    Sound t := by
  have hids : t.loads.map Prod.fst = inst :: (s.loads.map Prod.fst).filter (· ≠ inst) := by
    rw [hloads, List.map_cons, map_fst_filter]
  have hmem (k : AdapterInstanceId) :
      k ∈ t.loads.map Prod.fst ↔ k = inst ∨ k ∈ s.loads.map Prod.fst := by
    rw [hids, List.mem_cons, List.mem_filter]
    by_cases hk : k = inst <;> simp [hk]
  have hones : ∀ x ∈ t.loads, x.2 = 1 := by
    rw [hloads]
    exact List.forall_mem_cons.mpr ⟨hm, h.ones_filter inst⟩
  have hlength := (sum_ones hones).symm.trans (sum_load h hloads)
  have hnodup : (t.loads.map Prod.fst).Nodup := by
    rw [hids, List.nodup_cons]
    exact ⟨by simp, h.nodup.filter _⟩
  rw [hm, UInt64.toNat_one] at hlength
  have hacc := account_load h hacc
  by_cases hold : inst ∈ s.loads.map Prod.fst
  · -- the drawn id is on record already, and the reservation fails
    have hpos := length_pos h hold
    rw [if_pos (.inl hold)] at hacc
    rw [if_pos hold] at hlength
    refine h.still hacc (fun k => ?_) hnodup hones (by omega)
    rw [hmem]
    exact or_iff_right_of_imp fun e => e ▸ hold
  · have hused := used_succ hroom
    rw [if_neg (not_or.mpr ⟨hold, Nat.not_le.mpr hroom⟩)] at hacc
    rw [if_neg hold] at hlength
    refine h.moved hacc (fun k hk => ?_) ?_ hnodup hones (by omega) (by omega)
    · rw [hmem]
      exact or_iff_right hk
    · rw [if_pos ((hmem inst).mpr (.inl rfl))]

end Load

end Sound

/-! ## What a step can do -/

/-- Every adapter has a size, and no instance is referenced or pinned. -/
structure Plain (f : Fabric) : Prop where
  sized : ∀ (k : Bytes) (d : AdapterDescriptor), f.adapters[k]? = some d → d.memoryBytes ≠ 0
  free : Free f

section Plain

variable {f : Fabric}

theorem Plain.registerAdapter (h : Plain f) (d : AdapterDescriptor) :
    Plain (f.registerAdapter d).2 := by
  rcases f.registerAdapter_cases d with ⟨_, e, he⟩ | ⟨hd, he⟩
  · rw [he]
    exact h
  · rw [he]
    refine ⟨fun k d' hd' => ?_, h.free⟩
    rcases Table.of_insert hd' with ⟨_, rfl⟩ | hd'
    · exact hd.2.2.2.2
    · exact h.sized k d' hd'

theorem Plain.wkRegister (h : Plain f) (msg : Message) : Plain (wkRegister f msg) := by
  refine ⟨?_, h.free.wkRegister msg⟩
  rcases wkRegister_cases f msg with he | ⟨rec, _, _, _, he⟩
  · rw [he]
    exact h.sized
  · rw [he]
    exact h.sized

end Plain

/-- What a request or a new worker does to the account and to the record. -/
inductive Moves (s t : Books) : Cluster.Action → Prop where
  | none {a : Cluster.Action} (hacc : t.account = s.account) (hloads : t.loads = s.loads)
    (hdeclines : Declines s a) (hfits : Fits s a) : Moves s t a
  | load {req : Message} {fence : AuthorityFence} {d : AdapterDescriptor}
    (htype : req.type = .ctlLoad) (hp : Passes s.cluster.shared req fence d)
    (hw : req.text2 ∈ s.cluster.workers) (hok : (s.cluster.request req).1.ok = true)
    (hacc : t.account = s.account.reserve 1 (nextInstance s.cluster.shared).str)
    (hloads : t.loads = (nextInstance s.cluster.shared, d.memoryBytes) ::
      s.loads.filter (·.1 ≠ nextInstance s.cluster.shared)) : Moves s t (.request req)
  | evict {req : Message} {inst : AdapterInstanceId} {r : ResidencyRecord}
    (htype : req.type = .ctlEvict) (hid : mustParse req.text = .ok inst)
    (hr : s.cluster.shared.fabric.residency inst = some r)
    (hacc : t.account = s.account.release r.bytes inst.str)
    (hloads : t.loads = s.loads.filter (·.1 ≠ inst)) : Moves s t (.request req)

section Step

variable {s t : Books} {a : Cluster.Action} {req : Message}

theorem account_of_capacity (h : t.cluster.shared.fabric.capacity =
    s.cluster.shared.fabric.capacity) : t.account = s.account := by
  unfold account
  rw [h]

theorem account_of_request {s' : Cluster} (he : (s.cluster.request req).2 = s')
    (h : s'.shared.fabric.capacity = s.cluster.shared.fabric.capacity) :
    (s.apply (.request req)).account = s.account :=
  account_of_capacity ((congrArg (fun c => c.shared.fabric.capacity) he).trans h)

theorem wkRegister_capacity (f : Fabric) (msg : Message) :
    (wkRegister f msg).capacity = f.capacity := by
  rcases wkRegister_cases f msg with he | ⟨rec, _, _, _, he⟩
  · rw [he]
  · rw [he]
    rfl

theorem moves_registerAdapter (htype : req.type = .ctlRegisterAdapter) :
    Moves s (s.apply (.request req)) (.request req) := by
  refine .none ?_ ?_ ?_ ?_
  · rcases Cluster.request_registerAdapter (s := s.cluster) htype with he | ⟨d, he⟩
    · exact account_of_request he rfl
    · refine account_of_request he ?_
      obtain ⟨_, _, hd⟩ := Fabric.registerAdapter_frame s.cluster.shared.fabric d
      simp only [Cluster.withFabric, hd]
  · show s.record req _ = s.loads
    unfold record
    simp [htype, MsgType.ctlRegisterAdapter, MsgType.ctlLoad, MsgType.ctlEvict]
  · intro hload
    cases htype.symm.trans hload
  · rintro req' ⟨⟩
    constructor
    · intro hload
      cases htype.symm.trans hload
    · intro hevict
      cases htype.symm.trans hevict

theorem moves_load (htype : req.type = .ctlLoad) :
    Moves s (s.apply (.request req)) (.request req) := by
  rcases Cluster.request_load (s := s.cluster) htype with
    ⟨hno, hok, he⟩ | ⟨fence, d, hp, ⟨hw, hok, he⟩ | ⟨w, hw, hok, htext, he⟩⟩
  · refine .none (account_of_request he rfl) (if_pos hok) (fun _ _ _ _ => hok) ?_
    rintro req' ⟨⟩
    refine ⟨fun _ fence d hp => absurd hp (hno fence d), fun hevict => ?_⟩
    cases htype.symm.trans hevict
  · refine .none (account_of_request he rfl) (if_pos hok) (fun _ _ _ _ => hok) ?_
    rintro req' ⟨⟩
    refine ⟨fun _ _ _ _ hmem => ?_, fun hevict => ?_⟩
    · rw [Std.ExtTreeMap.mem_iff_isSome_getElem?, hw] at hmem
      cases hmem
    · cases htype.symm.trans hevict
  · refine .load htype hp (Cluster.mem_workers hw) hok ?_ ?_
    · show (s.cluster.request req).2.shared.fabric.capacity.account .deviceMemory = _
      rw [he]
      exact CapacityAccountant.account_reserve _ _ _ _
    · show s.record req _ = _
      unfold record
      rw [if_neg (by rw [hok]; decide), if_pos htype, htext, mustParse_str, hp.decoded]
      simp only [declared, hp.adapter, Option.map_some, Option.getD_some]

theorem moves_evict (hplain : Plain s.cluster.shared.fabric) (htype : req.type = .ctlEvict) :
    Moves s (s.apply (.request req)) (.request req) := by
  have hload : req.type ≠ .ctlLoad := by
    rw [htype]
    decide
  rcases Cluster.request_evict (s := s.cluster) htype with ⟨hno, hok, he⟩ | ⟨inst, hid, hok, he⟩
  · refine .none (account_of_request he rfl) (if_pos hok) (fun h => absurd h hload) ?_
    rintro req' ⟨⟩
    exact ⟨fun h => absurd h hload, fun _ inst r hid => absurd hid (hno inst)⟩
  · rcases hplain.free.evict_cases inst with ⟨hr, hfails, hsame⟩ | ⟨r, hr, hdone, herased⟩
    · refine .none (account_of_request he ?_) (if_pos (hok.trans hfails))
        (fun h => absurd h hload) ?_
      · exact congrArg Fabric.capacity ((Cluster.run_evict_refused hfails).trans hsame)
      · rintro req' ⟨⟩
        refine ⟨fun h => absurd h hload, fun _ inst' r hid' hr' => ?_⟩
        cases hid.symm.trans hid'
        cases hr.symm.trans hr'
    · refine .evict htype hid hr ?_ ?_
      · show (s.cluster.request req).2.shared.fabric.capacity.account .deviceMemory = _
        rw [he]
        show ((Section.evict inst).run s.cluster.shared).2.fabric.capacity.account _ = _
        rw [Cluster.run_evict_done hr hdone, herased]
        exact CapacityAccountant.account_release _ _ _ _
      · show s.record req _ = _
        unfold record
        rw [if_neg (by rw [hok, hdone]; decide), if_neg hload, if_pos htype, hid]

theorem act_cases (h : s.act a = some t) : Taken a ∧ t = s.apply a := by
  unfold act at h
  split at h
  · exact ⟨‹_›, (Option.some.inj h).symm⟩
  · cases h

theorem act_moves (h : s.act a = some t) (hplain : Plain s.cluster.shared.fabric) :
    Moves s t a := by
  obtain ⟨htaken, rfl⟩ := act_cases h
  cases a with
  | attach opts =>
    exact .none (account_of_capacity (wkRegister_capacity _ _)) rfl trivial nofun
  | request req =>
    rcases htaken with htype | htype | htype
    · exact moves_registerAdapter htype
    · exact moves_load htype
    · exact moves_evict hplain htype

theorem act_plain (h : s.act a = some t) (hplain : Plain s.cluster.shared.fabric) :
    Plain t.cluster.shared.fabric := by
  obtain ⟨htaken, rfl⟩ := act_cases h
  cases a with
  | attach opts => exact hplain.wkRegister _
  | request req =>
    show Plain (s.cluster.request req).2.shared.fabric
    rcases htaken with htype | htype | htype
    · rcases Cluster.request_registerAdapter (s := s.cluster) htype with he | ⟨d, he⟩
      · rwa [he]
      · rw [he]
        exact hplain.registerAdapter d
    · rcases Cluster.request_load (s := s.cluster) htype with
        ⟨_, _, he⟩ | ⟨fence, d, _, ⟨_, _, he⟩ | ⟨w, _, _, _, he⟩⟩
      · rwa [he]
      · rw [he]
        exact ⟨hplain.sized, hplain.free.loading d fence⟩
      · rw [he]
        exact ⟨hplain.sized, hplain.free.loaded d fence req.text2 w⟩
    · rcases Cluster.request_evict (s := s.cluster) htype with ⟨_, _, he⟩ | ⟨inst, _, _, he⟩
      · rwa [he]
      · rw [he]
        show Plain ((Section.evict inst).run s.cluster.shared).2.fabric
        refine ⟨?_, hplain.free.evicted inst⟩
        rcases hplain.free.evict_cases inst with ⟨_, hfails, hsame⟩ | ⟨r, hr, hdone, herased⟩
        · rw [Cluster.run_evict_refused hfails, hsame]
          exact hplain.sized
        · rw [Cluster.run_evict_done hr hdone, herased]
          exact hplain.sized

theorem kept_iff (h : s.act a = some t) (hplain : Plain s.cluster.shared.fabric) (hs : Sound s) :
    (Balanced t ∧ Declines s a → Sound t) ∧ (Balanced t ∧ Declines s a ↔ Fits s a) := by
  cases act_moves h hplain with
  | none hacc hloads hdeclines hfits =>
    have ht : Sound t := hs.still hacc (by simp [hloads]) (hloads ▸ hs.nodup) (hloads ▸ hs.ones)
      (by rw [hloads, hs.used_eq])
    exact ⟨fun _ => ht, fun _ => hfits, fun _ => ⟨ht.balanced, hdeclines⟩⟩
  | @load req fence d htype hp hw hok hacc hloads =>
    have hsized : d.memoryBytes ≠ 0 := hplain.sized _ d hp.adapter
    have hdeclared : s.declared fence.adapter = d.memoryBytes := by
      simp only [declared, hp.adapter, Option.map_some, Option.getD_some]
    have hone (hk : Balanced t ∧ Declines s (.request req)) :
        d.memoryBytes = 1 ∧ s.account.used.toNat < s.account.limit.toNat := by
      refine one_of_balanced hs hacc hloads hsized hk.1 (Nat.not_lt.mp fun hover => ?_)
      have hrefused := hk.2 htype fence (by simp [hp.decoded, Except.toOption])
        (by rwa [hdeclared])
      cases hok.symm.trans hrefused
    refine ⟨fun hk => sound_load hs hacc hloads (hone hk).1 (hone hk).2, fun hk => ?_,
      fun hfits => ?_⟩
    · rintro req' ⟨⟩
      refine ⟨fun _ fence' d' hp' _ => ?_, fun hevict => ?_⟩
      · cases hp.decoded.symm.trans hp'.decoded
        cases hp.adapter.symm.trans hp'.adapter
        exact hone hk
      · cases htype.symm.trans hevict
    · obtain ⟨hm, hroom⟩ := (hfits req rfl).load htype fence d hp hw
      refine ⟨(sound_load hs hacc hloads hm hroom).balanced, fun _ fence' hfence' hover => ?_⟩
      simp only [hp.decoded, Except.toOption, Option.mem_def] at hfence'
      obtain rfl := Option.some.inj hfence'
      rw [hdeclared, hm, UInt64.toNat_one] at hover
      omega
  | @evict req inst r htype hid hr hacc hloads =>
    have hload : req.type ≠ .ctlLoad := by
      rw [htype]
      decide
    have hone (hb : Balanced t) (hold : inst ∈ s.loads.map Prod.fst) : r.bytes = 1 :=
      one_of_balanced_evict hs hacc hloads hb hold
    refine ⟨fun hk => sound_evict hs hacc hloads (hone hk.1), fun hk => ?_, fun hfits => ?_⟩
    · rintro req' ⟨⟩
      refine ⟨fun h => absurd h hload, fun _ inst' r' hid' hr' hold => ?_⟩
      cases hid.symm.trans hid'
      cases hr.symm.trans hr'
      exact hone hk.1 hold
    · have hb := (hfits req rfl).evict htype inst r hid hr
      exact ⟨(sound_evict hs hacc hloads hb).balanced, fun h => absurd h hload⟩

end Step

/-! ## Runs -/

theorem Initial.plain {s : Books} (h : Initial s) : Plain s.cluster.shared.fabric := by
  obtain ⟨⟨limits, rng, he⟩, _⟩ := h
  rw [he]
  refine ⟨fun k d hd => ?_, .of_empty rfl⟩
  cases Std.ExtTreeMap.getElem?_empty.symm.trans hd

theorem Initial.sound {s : Books} (h : Initial s) : Sound s := by
  obtain ⟨⟨limits, rng, he⟩, hloads⟩ := h
  have hacc : s.account = (CapacityAccountant.ofLimits limits).account .deviceMemory := by
    unfold account
    rw [he]
    rfl
  have hused : ((CapacityAccountant.ofLimits limits).account .deviceMemory).used = 0 := by
    show (CapacityAccountant.ofLimits ∅).usedAt .deviceMemory = 0
    decide +kernel
  refine ⟨?_, ?_, fun inst => ?_, ?_, ?_⟩
  · rw [hloads]
    exact List.nodup_nil
  · simp [hloads]
  · rw [hacc, hloads]
    rfl
  · rw [hacc, hused, hloads]
    rfl
  · rw [hacc, hused]
    exact Nat.zero_le _

/-- Along a run of registrations, loads and evictions the account is what the loaded adapters
declared, and loads that do not fit are not answered ok, exactly when each load that gets to its
worker is of an adapter of one byte and there is room for it, and each instance that is evicted has
one byte still. -/
theorem tracked_iff {s : Books} {path : List (Cluster.Action × Books)} (h₀ : Initial s)
    (h : Run.Each (fun s a t => s.act a = some t) s path) :
    (Balanced s ∧ Run.Each (fun s a t => Balanced t ∧ Declines s a) s path) ↔
      Run.Each (fun s a _ => Fits s a) s path := by
  rw [and_iff_right h₀.sound.balanced]
  exact h.iff_of_step (I := fun s => Plain s.cluster.shared.fabric) (P := Sound) act_plain
    (fun hstep hplain hs => (kept_iff hstep hplain hs).1)
    (fun hstep hplain hs => (kept_iff hstep hplain hs).2) h₀.plain h₀.sound

/-! ### A load of one adapter -/

open Fabric (sampleAdapter sampleFence)

def sampleOptions : WorkerOptions where
  id := sampleFence.worker
  node := ⟨.ofBytes [7]⟩

/-- A worker comes, and the adapter is registered and loaded on it. -/
def loadActions (d : AdapterDescriptor) : List Cluster.Action :=
  let fence := { sampleFence with boot := (WorkerService.ofOptions sampleOptions).boot }
  [.attach sampleOptions,
    .request { adapterRequest with payload := serializeAdapter { d with generation := ⟨1⟩ } },
    .request { loadRequest with payload := encodeFence fence }]

def emptyBooks (limit : UInt64) : Books where
  cluster := {
    shared := {
      fabric := .ofLimits ((∅ : Std.ExtTreeMap _ _ _).insert .deviceMemory limit)
      rng := .instanceInit } }

theorem initial_emptyBooks (limit : UInt64) : Initial (emptyBooks limit) := ⟨⟨_, _, rfl⟩, rfl⟩

theorem tracked_iff_sample :
    ∃ path : List (Cluster.Action × Books), path.map Prod.fst = loadActions sampleAdapter ∧
      Run.Each (fun s a _ => Fits s a) (emptyBooks 10) path := by
  obtain ⟨path, hpath, hactions, hkept⟩ := Run.exists_checked act
    (fun s a t => decide (Balanced t ∧ Declines s a)) (loadActions sampleAdapter) (emptyBooks 10)
    (by decide +kernel) (by decide +kernel)
  refine ⟨path, hactions, (tracked_iff (initial_emptyBooks 10) hpath).mp ⟨?_, ?_⟩⟩
  · exact (initial_emptyBooks 10).sound.balanced
  · exact hkept.imp fun _ _ _ => of_decide_eq_true

/-- An adapter of 64 bytes is loaded into the 10 bytes of the device, and takes one of them. -/
theorem tracked_counterexample :
    ∃ s, Run.tryExec act (loadActions { sampleAdapter with memoryBytes := 64 }) (emptyBooks 10) =
      some s ∧ s.loads.map (·.2) = [64] ∧ s.account.limit = 10 ∧ ¬ Balanced s :=
  Run.exists_tryExec (P := fun s : Books =>
    s.loads.map (·.2) = [64] ∧ s.account.limit = 10 ∧ ¬ Balanced s) (by decide +kernel)

end Books

end Coordinator

end AdapterFabric
