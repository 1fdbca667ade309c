import AdapterFabric.Coordinator.Session
import AdapterFabric.Coordinator.Simulation

/-!
# AdapterFabric.Coordinator.Ended

What the end of a worker's connection leaves of the worker in the Fabric.

* `authorityActive_apply`: only an active record has authority.
* `ended_torn`: nothing that acts, provided that no handler returns on an undecodable message while
  it is a worker's latest, that a teardown leaves out no worker, and that no load readies it later.
-/

namespace AdapterFabric

namespace Coordinator

open Fabric (Op)

/-! ## Authority without activity -/

/-- Records with authority are active. -/
def AuthorityActive (f : Fabric) : Prop :=
  ∀ (k : Bytes) (ar : AdapterAuthorityRecord), f.authority[k]? = some ar →
    ar.hasAuthority = true → ar.active = true

section AuthorityActive

variable {f f' : Fabric}

theorem AuthorityActive.congr (h : AuthorityActive f) (he : f'.authority = f.authority) :
    AuthorityActive f' := by
  intro k ar har
  rw [he] at har
  exact h k ar har

theorem AuthorityActive.insert (h : AuthorityActive f) {k : Bytes} {ar : AdapterAuthorityRecord}
    (he : f'.authority = f.authority.insert k ar)
    (har : ar.hasAuthority = true → ar.active = true) :
    AuthorityActive f' := by
  intro k' ar' har'
  rw [he] at har'
  rcases Table.of_insert har' with ⟨_, rfl⟩ | har'
  · exact har
  · exact h k' ar' har'

theorem AuthorityActive.modify (h : AuthorityActive f) {k : Bytes}
    {g : AdapterAuthorityRecord → AdapterAuthorityRecord}
    (he : f'.authority = f.authority.modify k g)
    (hg : ∀ ar, (ar.hasAuthority = true → ar.active = true) →
      (g ar).hasAuthority = true → (g ar).active = true) : AuthorityActive f' := by
  intro k' ar' har'
  rw [he] at har'
  rcases Table.of_modify har' with ⟨_, ar, har, rfl⟩ | har'
  · exact hg ar (h k' ar har)
  · exact h k' ar' har'

theorem AuthorityActive.revokeWhere (h : AuthorityActive f) (lost : AuthorityFence → Bool) :
    AuthorityActive (f.revokeWhere lost) := by
  intro k ar har
  rw [Fabric.revokeWhere_authority] at har
  obtain ⟨ar₀, har₀, rfl⟩ := Option.map_eq_some_iff.mp har
  by_cases hlost : lost ar₀.fence = true
  · rw [if_pos hlost]
    nofun
  · rw [if_neg hlost]
    exact h k ar₀ har₀

theorem AuthorityActive.createInstance (h : AuthorityActive f) (adapter : AdapterId)
    (worker : WorkerId) (boot : WorkerBootId) (device : DeviceId) (bytes : UInt64) (rng : Rng) :
    AuthorityActive (f.createInstance adapter worker boot device bytes rng).2.1 := by
  unfold Fabric.createInstance
  cases f.adapter adapter with
  | none => exact h
  | some d => exact h.insert rfl nofun

theorem AuthorityActive.bindAuthority (h : AuthorityActive f) (id : AdapterId)
    (fence : AuthorityFence) : AuthorityActive (f.bindAuthority id fence).2 := by
  rcases Fabric.bindAuthority_cases f id fence with he | ⟨ar, _, _, _, he⟩
  · rwa [he]
  · have hauthority : (f.bindAuthority id fence).2.authority =
        f.authority.insert id.str (Fabric.granted ar fence) := by rw [he]
    exact h.insert hauthority fun _ => rfl

theorem authorityActive_apply {op : Op} (hop : Section.IsControl op) (h : AuthorityActive f) :
    AuthorityActive (op.apply f) := by
  by_cases hquiet : op.isQuiet = true
  · exact h.congr (Fabric.Op.quiet_apply hquiet f).authority
  cases op with
  | registerWorker rec => cases hop
  | onWorkerDown id => cases hop
  | onWorkerRestart id boot => cases hop
  | recover s => cases hop
  | registerAdapter d =>
    obtain ⟨_, _, he⟩ := Fabric.registerAdapter_frame f d
    exact h.congr (by simp only [Op.apply, he])
  | createInstance adapter worker boot device bytes rng =>
    exact h.createInstance adapter worker boot device bytes rng
  | bindAuthority id fence => exact h.bindAuthority id fence
  | invalidate id trigger reason =>
    refine h.modify (k := id.str) rfl fun ar _ hauth => ?_
    cases hauth
  | advanceEpoch => exact h
  | setLifecycle id state => exact h.modify (k := id.str) rfl fun _ har => har
  | _ => exact absurd rfl hquiet

theorem authorityActive_wkRegister (msg : Message) (h : AuthorityActive f) :
    AuthorityActive (wkRegister f msg) := by
  rcases wkRegister_cases f msg with he | ⟨rec, _, _, _, he⟩
  · rwa [he]
  · rw [he]
    have hreg : AuthorityActive (f.registerWorker rec) := h
    exact (hreg.revokeWhere fun fence => fence.worker = rec.id ∧ fence.boot ≠ rec.boot).congr rfl

theorem authorityActive_onWorkerDown (id : WorkerId) (h : AuthorityActive f) :
    AuthorityActive (f.onWorkerDown id) :=
  (h.revokeWhere fun fence => fence.worker = id).congr rfl

theorem authorityActive_exec {s s' : Shared} {e : Effect} {r : e.Res} (he : exec s e r s')
    (h : AuthorityActive s.fabric) : AuthorityActive s'.fabric := by
  obtain ⟨ops, hops, hrun⟩ := exec_refines he
  rw [hrun]
  exact Run.exec_preserves (P := AuthorityActive)
    (fun op ho _ => authorityActive_apply (hops op ho)) h

theorem authorityActive_env {s s' : Shared} {v : WorkerEvent} (he : env s v s')
    (h : AuthorityActive s.fabric) : AuthorityActive s'.fabric := by
  cases v with
  | register msg =>
    cases he
    exact authorityActive_wkRegister msg h
  | down id =>
    cases he
    exact authorityActive_onWorkerDown id h

theorem Initial.authorityActive {c : Config} (h : Initial c) : AuthorityActive c.shared.fabric := by
  intro k ar har
  rw [h.fresh.no_record] at har
  cases har

end AuthorityActive

/-! ## Workers that are down -/

/-- The worker is not connected and has no ready residency. -/
structure Down (f : Fabric) (w : WorkerId) : Prop where
  worker : ∃ rec, f.worker w = some rec ∧ rec.connected = false
  residencies : ∀ (k : Bytes) (r : ResidencyRecord), f.residencies[k]? = some r → r.worker = w →
    r.ready = false

/-- Nor has it an authority record that is active or has authority. -/
structure TornDown (f : Fabric) (w : WorkerId) : Prop extends Down f w where
  authority : ∀ (k : Bytes) (ar : AdapterAuthorityRecord), f.authority[k]? = some ar →
    ar.fence.worker = w → ar.active = false ∧ ar.hasAuthority = false

section Down

variable {f f' : Fabric} {w : WorkerId}

theorem Down.tornDown (h : Down f w) (hlive : Live f) (hactive : AuthorityActive f) :
    TornDown f w := by
  refine ⟨h, fun k ar har hworker => ?_⟩
  have hinactive : ar.active = false := by
    by_contra ha
    obtain ⟨rec, hrec, hdisconnected⟩ := h.worker
    obtain ⟨rec', hrec', hconnected, _⟩ := hlive k ar har (by simpa using ha)
    rw [hworker, hrec] at hrec'
    cases hrec'
    rw [hdisconnected] at hconnected
    cases hconnected
  refine ⟨hinactive, ?_⟩
  by_contra hauth
  rw [hactive k ar har (by simpa using hauth)] at hinactive
  cases hinactive

theorem Down.of_noneReadied (h : Down f w) (hnone : NoneReadied f f')
    (hworkers : f'.workers = f.workers) : Down f' w := by
  constructor
  · unfold Fabric.worker
    rw [hworkers]
    exact h.worker
  · intro k r hr hworker
    by_contra hready
    obtain ⟨r₀, hr₀, hready₀, hworker₀, _⟩ := hnone k r hr (by simpa using hready)
    rw [h.residencies k r₀ hr₀ (hworker₀.trans hworker)] at hready₀
    cases hready₀

theorem Down.markReady (h : Down f w) (inst : AdapterInstanceId) (bytes : UInt64)
    (hother : ∀ r, f.residency inst = some r → r.worker ≠ w) : Down (f.markReady inst bytes) w := by
  refine ⟨h.worker, fun k r hr hworker => ?_⟩
  have hr : (f.residencies.modify inst.str fun r => { r with ready := true, bytes })[k]? =
    some r := hr
  rcases Table.of_modify hr with ⟨rfl, r₀, hr₀, rfl⟩ | hr
  · exact absurd hworker (hother r₀ hr₀)
  · exact h.residencies k r hr hworker

theorem Down.wkRegister (h : Down f w) {msg : Message} {rec : WorkerRecord}
    (hrec : parseRegistration f.epoch msg = .ok rec) (hother : rec.id ≠ w) :
    Down (wkRegister f msg) w := by
  constructor
  · rw [worker_wkRegister hrec, if_neg hother]
    exact h.worker
  · intro k r hr hworker
    have hr : (f.residencies.map fun _ r =>
        if r.worker = rec.id ∧ r.boot ≠ rec.boot then { r with ready := false, migration := .none }
        else r)[k]? = some r := by
      unfold Coordinator.wkRegister at hr
      rwa [hrec] at hr
    rw [Std.ExtTreeMap.getElem?_map] at hr
    obtain ⟨r₀, hr₀, rfl⟩ := Option.map_eq_some_iff.mp hr
    split at hworker
    · rename_i hlost
      exact absurd (hlost.1.symm.trans hworker) hother
    · rename_i hkept
      rw [if_neg hkept]
      exact h.residencies k r₀ hr₀ hworker

/-- A worker that goes down leaves no residency ready that was not. -/
theorem residency_onWorkerDown {id : WorkerId} {k : Bytes} {r : ResidencyRecord}
    (hr : (f.onWorkerDown id).residencies[k]? = some r) :
    ∃ r₀, f.residencies[k]? = some r₀ ∧ r₀.worker = r.worker ∧
      (r.ready = true → r₀.ready = true ∧ r.worker ≠ id) := by
  have hr : (f.residencies.map fun _ r => if r.worker = id then { r with ready := false } else r)[
    k]? = some r := hr
  rw [Std.ExtTreeMap.getElem?_map] at hr
  obtain ⟨r₀, hr₀, rfl⟩ := Option.map_eq_some_iff.mp hr
  refine ⟨r₀, hr₀, ?_, ?_⟩
  · split <;> rfl
  · by_cases hid : r₀.worker = id
    · rw [if_pos hid]
      nofun
    · rw [if_neg hid]
      exact fun hready => ⟨hready, hid⟩

theorem Down.onWorkerDown (h : Down f w) (id : WorkerId) : Down (f.onWorkerDown id) w := by
  constructor
  · obtain ⟨rec, hrec, hdisconnected⟩ := h.worker
    rw [worker_onWorkerDown, hrec]
    by_cases hid : id = w
    · exact ⟨_, if_pos hid, rfl⟩
    · exact ⟨rec, if_neg hid, hdisconnected⟩
  · intro k r hr hworker
    by_contra hready
    obtain ⟨r₀, hr₀, hworker₀, hkept⟩ := residency_onWorkerDown hr
    have := h.residencies k r₀ hr₀ (hworker₀.trans hworker)
    rw [(hkept (by simpa using hready)).1] at this
    cases this

theorem down_onWorkerDown (h : (f.worker w).isSome = true) : Down (f.onWorkerDown w) w := by
  constructor
  · obtain ⟨rec, hrec⟩ := Option.isSome_iff_exists.mp h
    rw [worker_onWorkerDown, if_pos rfl, hrec]
    exact ⟨_, rfl, rfl⟩
  · intro k r hr hworker
    by_contra hready
    obtain ⟨_, _, _, hkept⟩ := residency_onWorkerDown hr
    exact (hkept (by simpa using hready)).2 hworker

end Down

/-! ## Ended connections -/

namespace Server

variable {s s' : Server}

/-- Every worker that has registered is known to the Fabric. -/
def RegisteredKnown (s : Server) : Prop :=
  ∀ r ∈ s.history.registered, (s.shared.fabric.worker r.id).isSome = true

/-- The workers whose latest connection has ended are torn down. -/
def EndedTorn (s : Server) : Prop :=
  ∀ w r, s.lastOver w = some r → s.Over r.conn → TornDown s.shared.fabric w

def EndedDown (s : Server) : Prop :=
  ∀ w r, s.lastOver w = some r → s.Over r.conn → Down s.shared.fabric w

/-- The handler returns on an undecodable message only if it is no worker's latest, tears down the
only worker whose latest it is, and readies no residency of a worker whose latest has returned. -/
structure EndsCleanly (s : Server) (a : Action) : Prop where
  undecodable : ∀ c slot frame rest e, a = .read c → s.handlers c = some (.reading slot) →
    s.inbound c = frame :: rest → decodeMessage frame = .error e →
      ∀ w r, s.lastOver w = some r → r.conn ≠ c
  teardown : ∀ c slot sl, a = .advance c → s.handlers c = some (.downing slot) →
    s.slots slot = some sl → ∀ w r, s.lastOver w = some r → r.conn = c → w = sl.id
  load : ∀ c inst bytes k res, a = .advance c →
    s.handlers c = some (.serving (.perform (.locked (.markReady inst bytes)) k)) →
      s.shared.fabric.residency inst = some res →
        ∀ r, s.lastOver res.worker = some r → ¬ s.Over r.conn

theorem RegisteredKnown.of_workers (h : s.RegisteredKnown)
    (hreg : s'.history.registered = s.history.registered)
    (hworkers : s'.shared.fabric.workers = s.shared.fabric.workers) : s'.RegisteredKnown := by
  intro r hr
  rw [hreg] at hr
  unfold Fabric.worker
  rw [hworkers]
  exact h r hr

theorem RegisteredKnown.move {a : Action} (hm : Move s a s') (h : s.RegisteredKnown) :
    s'.RegisteredKnown := by
  cases hm with
  | locked hh => exact h.of_workers rfl (worker_locked _ _)
  | @enterFabric c msg slot rec hh hrec =>
    intro r hr
    show ((wkRegister s.shared.fabric msg).worker r.id).isSome = true
    rw [worker_wkRegister hrec]
    by_cases hid : rec.id = r.id
    · rw [if_pos hid]
      rfl
    · rw [if_neg hid]
      rcases List.mem_cons.mp hr with rfl | hr
      · exact absurd rfl hid
      · exact h r hr
  | @down c slot sl hh hsl =>
    intro r hr
    show ((s.shared.fabric.onWorkerDown sl.id).worker r.id).isSome = true
    rw [worker_onWorkerDown]
    split
    · rw [Option.isSome_map]
      exact h r hr
    · exact h r hr
  | _ => exact h.of_workers rfl rfl

theorem EndedDown.goto (h : s.EndedDown) {c : ℕ} {hd : Handler}
    (hover : hd.isOver = true → ∀ w r, s.lastOver w = some r → r.conn ≠ c) :
    (s.goto c hd).EndedDown := by
  intro w r hlast hend
  rcases over_of_goto hend with ⟨hconn, hreturned⟩ | hend
  · exact absurd hconn (hover hreturned w r hlast)
  · exact h w r hlast hend

theorem EndedDown.fabric (h : s.EndedDown) {shared : Shared}
    (hdown : ∀ w r, s.lastOver w = some r → s.Over r.conn → Down s.shared.fabric w →
      Down shared.fabric w) : EndedDown { s with shared } :=
  fun w r hlast hend => hdown w r hlast hend (h w r hlast hend)

/-- A handler without a slot is no worker's latest. -/
theorem Sessions.not_latest (h : s.Sessions) {c : ℕ} {hd : Handler} (hh : s.handlers c = some hd)
    (hnothing : hd.holding = .nothing) (w : WorkerId) (r : Registered)
    (hlast : s.lastOver w = some r) : r.conn ≠ c := by
  have hfits := h.fits c hd hh
  rw [hnothing] at hfits
  exact hfits r (lastOver_mem hlast).1

theorem EndedDown.move {a : Action} (hm : Move s a s') (hsess : s.Sessions)
    (hknown : s.RegisteredKnown) (hclean : EndsCleanly s a) (h : s.EndedDown) : s'.EndedDown := by
  cases hm with
  | peer hh => exact h
  | reply hcmd hmsg => exact h
  | registerThrew hh hin => exact h
  | enterThrew hh => exact h
  | hangup hh => exact h.goto fun _ => hsess.not_latest hh rfl
  | answerLost hh => exact h.goto fun _ => hsess.not_latest hh rfl
  | undecodable hh hin hmsg => exact h.goto fun _ => hclean.undecodable _ _ _ _ _ rfl hh hin hmsg
  | @locked c sec k hh =>
    refine (h.fabric fun w r hlast hend hdown => ?_).goto nofun
    by_cases hmark : MarksReady (.locked sec)
    · cases sec with
      | markReady inst bytes =>
        have hmarked := hdown.markReady inst bytes fun res hres hworker =>
          hclean.load c inst bytes k res rfl hh hres r (hworker ▸ hlast) hend
        exact ⟨hmarked.worker, hmarked.residencies⟩
      | _ => cases hmark
    · have hexec : exec s.shared (.locked sec) (sec.run s.shared).1 (sec.run s.shared).2 := rfl
      exact hdown.of_noneReadied (noneReadied_exec hexec hmark) (worker_locked _ _)
  | @enterFabric c msg slot rec hh hrec =>
    intro w r hlast hend
    rw [lastOver_cons rfl] at hlast
    have hend : s.Over r.conn ∧ r.conn ≠ c := by
      rcases over_of_goto hend with ⟨_, hover⟩ | hend
      · cases hover
      · refine ⟨hend, fun hconn => Running.not_over ⟨_, hh, rfl⟩ (hconn ▸ hend)⟩
    by_cases hw : rec.id = w
    · rw [if_pos hw] at hlast
      cases hlast
      exact absurd rfl hend.2
    · rw [if_neg hw] at hlast
      exact (h w r hlast hend.1).wkRegister hrec hw
  | @down c slot sl hh hsl =>
    intro w r hlast hend
    have hlast : s.lastOver w = some r := hlast
    rcases over_of_goto hend with ⟨hconn, _⟩ | hend
    · obtain rfl := hclean.teardown c slot sl rfl hh hsl w r hlast hconn
      obtain ⟨hmem, hid⟩ := lastOver_mem hlast
      exact down_onWorkerDown (hid ▸ hknown r hmem)
    · exact (h w r hlast hend).onWorkerDown sl.id
  | nextReq hh => exact h.goto nofun
  | shutdown hh => exact h.goto nofun
  | accept hh | hangupWorker hh | register hh _ _ _ _ _ | readReply hh _ _ _ _
  | readIgnored hh _ _ _ _ | readRequest hh _ _ _ | ack hh | answer hh | sendCommand hh _
  | sendLost hh | enterSlot hh | find hh _ | findNone hh | settle hh | call hh | checkFailed hh
  | check hh _ _ | insert hh | unsend hh | wake hh _ _ | erase hh | close hh | sweep hh =>
    exact EndedDown.goto (s := { s with .. }) h nofun

theorem Simulated.live (h : s.Simulated) : Live s.shared.fabric :=
  h.invariant (I := fun s => Live s.fabric) (fun _ => Initial.live) live_exec live_env

theorem Simulated.authorityActive (h : s.Simulated) : AuthorityActive s.shared.fabric :=
  h.invariant (I := fun s => AuthorityActive s.fabric) (fun _ => Initial.authorityActive)
    authorityActive_exec authorityActive_env

theorem Initial.registeredKnown (h : Initial s) : s.RegisteredKnown := by
  obtain ⟨limits, rng, rfl⟩ := h
  intro r hr
  cases hr

theorem Initial.endedDown (h : Initial s) : s.EndedDown := by
  obtain ⟨limits, rng, rfl⟩ := h
  intro w r hlast
  cases hlast

/-- In every state of a run whose connections end cleanly, the workers whose latest connection has
ended are torn down. -/
theorem ended_torn {s₀ : Server} {path : List (Action × Server)} (h₀ : Initial s₀)
    (h : Run.Each Step s₀ path) (hclean : Run.Each (fun s a _ => EndsCleanly s a) s₀ path) :
    ∀ x ∈ path, EndedTorn x.2 := by
  have hsim : ∀ x ∈ path, x.2.Simulated :=
    h.preserves (P := Simulated) (fun hs hP => hP.move (act_move hs)) h₀.simulated
  have hdown : ∀ x ∈ path, x.2.EndedDown :=
    h.always_of (I := fun s => s.Resolved ∧ s.Sessions ∧ s.RegisteredKnown) (P := EndedDown)
      (fun hs ⟨hres, hsess, hknown⟩ =>
        ⟨hres.move (act_move hs), hsess.move (act_move hs) hres, hknown.move (act_move hs)⟩)
      (fun hs ⟨_, hsess, hknown⟩ hP hC => hP.move (act_move hs) hsess hknown hC) hclean
      ⟨h₀.resolved, h₀.sessions, h₀.registeredKnown⟩ h₀.endedDown
  intro x hx w r hlast hend
  exact (hdown x hx w r hlast hend).tornDown (hsim x hx).live (hsim x hx).authorityActive

/-! ### A frame that does not decode -/

open Fabric (sampleWorker)

/-- A check for `EndsCleanly` where a single worker registers and nothing is loaded. -/
def endsAlone (s : Server) : Action → Bool
  | .read c => (s.inbound c).head?.all fun frame => (decodeMessage frame).isOk
  | .advance c =>
    match s.handlers c with
    | some (.downing slot) =>
      (s.slots slot).all fun sl => s.history.registered.all fun r => r.id = sl.id
    | some (.serving (.perform (.locked (.markReady _ _)) _)) => false
    | _ => true
  | _ => true

theorem endsCleanly_of_alone {a : Action} (h : s.endsAlone a = true) : EndsCleanly s a := by
  constructor
  · rintro c slot frame rest e rfl hh hin hmsg
    simp [endsAlone, hin, hmsg, Except.isOk, Except.toBool] at h
  · rintro c slot sl rfl hh hsl w r hlast -
    obtain ⟨hmem, hid⟩ := lastOver_mem hlast
    have hall : ∀ r ∈ s.history.registered, r.id = sl.id := by
      simpa [endsAlone, hh, hsl] using h
    exact hid.symm.trans (hall r hmem)
  · rintro c inst bytes k res rfl hh
    simp [endsAlone, hh] at h

/-- A worker registers, and its connection ends. -/
def joinsAndLeaves : List Action := joins 0 workerRegistration ++ leaves 0

theorem ended_torn_sample :
    ∃ path : List (Action × Server), path.map Prod.fst = joinsAndLeaves ∧
      ∀ x ∈ path, EndedTorn x.2 := by
  obtain ⟨path, hpath, hlabels, halone⟩ :=
    Run.exists_checked act (fun s a _ => s.endsAlone a) joinsAndLeaves start (by decide +kernel)
      (by decide +kernel)
  exact ⟨path, hlabels, ended_torn start_initial hpath
    (halone.imp fun _ _ _ => endsCleanly_of_alone)⟩

/-- A registered worker sends an empty frame. -/
def garbled : List Action := joins 0 workerRegistration ++ [.peer 0 [], .read 0]

theorem ended_torn_counterexample :
    ∃ s₀ as s, Initial s₀ ∧ Run.Steps Step s₀ as s ∧ ¬ EndedTorn s := by
  obtain ⟨s, hs, hover, hregistered, hconnected⟩ :
      ∃ s : Server, Run.tryExec act garbled start = some s ∧
        (s.handlers 0).map Handler.isOver = some true ∧
        s.history.registered.map (fun r => (r.conn, r.id)) = [(0, sampleWorker.id)] ∧
        (s.shared.fabric.worker sampleWorker.id).map (·.connected) = some true :=
    Run.exists_tryExec (by decide +kernel)
  obtain ⟨r, _, hreg, hr, _⟩ := List.map_eq_cons_iff.mp hregistered
  obtain ⟨hconn, hid⟩ := Prod.mk.inj hr
  refine ⟨start, garbled, s, start_initial, .of_tryExec hs, fun htorn => ?_⟩
  have hlast : s.lastOver sampleWorker.id = some r := by simp [lastOver, hreg, hid]
  obtain ⟨rec, hrec, hdisconnected⟩ :=
    (htorn sampleWorker.id r hlast (hconn ▸ Option.map_eq_some_iff.mp hover)).worker
  rw [hrec, Option.map_some, hdisconnected] at hconnected
  cases hconnected

end Server

end Coordinator

end AdapterFabric
