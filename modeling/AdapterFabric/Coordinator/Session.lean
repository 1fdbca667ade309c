import AdapterFabric.Coordinator.Readiness
import AdapterFabric.Coordinator.Teardown

/-!
# AdapterFabric.Coordinator.Session

The connection a worker last registered over, and what the end of an older one does to it.

* `Sessions.move`: a worker's handler holds on to the slot of a worker that has registered over its
  connection.
* `superseded_iff`: the end of a connection spares every worker that has registered over a running
  one since, exactly when no handler tears down such a worker.
-/

namespace AdapterFabric

namespace Coordinator

/-- The handler has returned. -/
def Handler.isOver : Handler → Bool
  | finished _ => true
  | returned _ => true
  | _ => false

namespace Server

/-- The handler of `c` has not returned. -/
def Running (s : Server) (c : ℕ) : Prop := ∃ h, s.handlers c = some h ∧ h.isOver = false

def Over (s : Server) (c : ℕ) : Prop := ∃ h, s.handlers c = some h ∧ h.isOver = true

/-- The latest registration of `w`. -/
def lastOver (s : Server) (w : WorkerId) : Option Registered :=
  s.history.registered.find? fun r => r.id = w

section

variable {s s' : Server}

theorem Running.not_over {c : ℕ} (h : s.Running c) : ¬ s.Over c := by
  rintro ⟨hd, hh, hover⟩
  obtain ⟨hd', hh', hrun⟩ := h
  cases hh.symm.trans hh'
  rw [hrun] at hover
  cases hover

theorem lastOver_mem {w : WorkerId} {r : Registered} (h : s.lastOver w = some r) :
    r ∈ s.history.registered ∧ r.id = w :=
  ⟨List.mem_of_find?_eq_some h, by simpa using List.find?_some h⟩

theorem lastOver_congr (h : s'.history.registered = s.history.registered) :
    s'.lastOver = s.lastOver := by
  unfold lastOver
  rw [h]

theorem lastOver_cons {w : WorkerId} {r : Registered}
    (h : s'.history.registered = r :: s.history.registered) :
    s'.lastOver w = if r.id = w then some r else s.lastOver w := by
  unfold lastOver
  rw [h, List.find?_cons]
  by_cases hr : r.id = w
  · simp [hr]
  · simp [hr]

theorem running_goto {c d : ℕ} {hd : Handler} (hover : hd.isOver = false) (h : s.Running d) :
    (s.goto c hd).Running d := by
  by_cases hdc : d = c
  · subst hdc
    exact ⟨hd, goto_self _ _ _, hover⟩
  · obtain ⟨hd', hh, hrun⟩ := h
    exact ⟨hd', (goto_handlers _ hdc _).trans hh, hrun⟩

theorem running_of_goto {c d : ℕ} {hd : Handler} (hc : s.Running c) (h : (s.goto c hd).Running d) :
    s.Running d := by
  obtain ⟨hd', hh, hover⟩ := h
  by_cases hdc : d = c
  · rwa [hdc]
  · rw [goto_handlers _ hdc] at hh
    exact ⟨hd', hh, hover⟩

theorem not_running_goto {c : ℕ} {hd : Handler} (hover : hd.isOver = true) :
    ¬ (s.goto c hd).Running c := by
  rintro ⟨hd', hh, hrun⟩
  rw [goto_self] at hh
  cases hh
  rw [hover] at hrun
  cases hrun

theorem over_of_goto {c d : ℕ} {hd : Handler} (h : (s.goto c hd).Over d) :
    (d = c ∧ hd.isOver = true) ∨ s.Over d := by
  obtain ⟨hd', hh, hover⟩ := h
  rcases Table.of_update hh with ⟨rfl, rfl⟩ | ⟨-, hh⟩
  · exact .inl ⟨rfl, hover⟩
  · exact .inr ⟨hd', hh, hover⟩

/-- A handler that runs after a step ran before, or its connection has just been accepted. -/
theorem Move.running {a : Action} (hm : Move s a s') {d : ℕ} (h : s'.Running d) :
    s.Running d ∨ s.handlers d = none := by
  have hkept {c : ℕ} {hd hd' : Handler} (hh : s.handlers c = some hd) (hover : hd.isOver = false)
      (h : (s.goto c hd').Running d) : s.Running d ∨ s.handlers d = none :=
    .inl (running_of_goto ⟨hd, hh, hover⟩ h)
  cases hm with
  | @accept c hnew =>
    obtain ⟨hd, hh, hover⟩ := h
    by_cases hdc : d = c
    · exact .inr (hdc ▸ hnew)
    · rw [goto_handlers _ hdc] at hh
      exact .inl ⟨hd, hh, hover⟩
  | peer hh => exact .inl h
  | reply hcmd hmsg => exact .inl h
  | registerThrew hh hin => exact .inl h
  | enterThrew hh => exact .inl h
  | hangup hh | hangupWorker hh | undecodable hh _ _ | register hh _ _ _ _ _ | readReply hh _ _ _ _
  | readIgnored hh _ _ _ _ | readRequest hh _ _ _ | ack hh | answer hh | answerLost hh
  | sendCommand hh _ | sendLost hh | enterSlot hh | enterFabric hh _ | find hh _ | findNone hh
  | settle hh | locked hh | nextReq hh | shutdown hh | call hh | checkFailed hh | check hh _ _
  | insert hh | unsend hh | wake hh _ _ | erase hh | close hh | sweep hh | down hh _ =>
    exact hkept hh rfl h

end

end Server

/-! ## Whose slot a handler has -/

/-- The slot that a handler holds on to, with the message that it is about to register. -/
inductive Holding where
  | nothing
  | entering (msg : Message) (slot : ℕ)
  | owning (slot : ℕ)

def Holding.ofSlot : Option ℕ → Holding
  | none => nothing
  | some slot => owning slot

def Handler.holding : Handler → Holding
  | reading slot => .ofSlot slot
  | inserting msg slot => .entering msg slot
  | registering msg slot => .entering msg slot
  | acking slot => .owning slot
  | finding _ slot => .owning slot
  | settling _ slot _ => .owning slot
  | serving _ => .nothing
  | calling _ _ => .nothing
  | closing slot => .owning slot
  | sweeping slot => .owning slot
  | downing slot => .owning slot
  | finished slot => .owning slot
  | returned slot => .ofSlot slot

/-- What the handler of `c` holds is the slot of a worker that has registered over `c`, or of its
message. If it holds nothing, nothing has. -/
def Holding.Fits (slots : ℕ → Option WorkerSlot) (registered : List Registered) (c : ℕ) :
    Holding → Prop
  | nothing => ∀ r ∈ registered, r.conn ≠ c
  | entering msg slot => ∃ sl, slots slot = some sl ∧ mustParse msg.text = .ok sl.id
  | owning slot => ∃ sl, slots slot = some sl ∧ ∃ r ∈ registered, r.conn = c ∧ r.id = sl.id

/-- Every handler fits, and what has registered has a handler. -/
structure Enrolled (slots : ℕ → Option WorkerSlot) (registered : List Registered)
    (handlers : ℕ → Option Handler) : Prop where
  fits : ∀ c h, handlers c = some h → h.holding.Fits slots registered c
  known : ∀ r ∈ registered, handlers r.conn ≠ none

abbrev Server.Sessions (s : Server) : Prop :=
  Enrolled s.slots s.history.registered s.handlers

namespace Enrolled

variable {slots slots' : ℕ → Option WorkerSlot} {registered : List Registered}
  {handlers : ℕ → Option Handler} {c : ℕ} {h : Handler}

theorem goto (he : Enrolled slots registered handlers)
    (hfits : h.holding.Fits slots registered c) :
    Enrolled slots registered (Function.update handlers c (some h)) := by
  constructor
  · intro d hd hh
    rcases Table.of_update hh with ⟨rfl, rfl⟩ | ⟨-, hh⟩
    · exact hfits
    · exact he.fits d hd hh
  · intro r hr
    by_cases hrc : r.conn = c
    · rw [hrc, Function.update_self]
      nofun
    · rw [Function.update_of_ne hrc]
      exact he.known r hr

theorem keep (he : Enrolled slots registered handlers) {h₀ : Handler}
    (hh : handlers c = some h₀) (hsame : h.holding = h₀.holding) :
    Enrolled slots registered (Function.update handlers c (some h)) :=
  he.goto (hsame ▸ he.fits c h₀ hh)

theorem reslot (he : Enrolled slots registered handlers)
    (hids : ∀ ref sl, slots ref = some sl → ∃ sl', slots' ref = some sl' ∧ sl'.id = sl.id) :
    Enrolled slots' registered handlers := by
  refine ⟨fun d hd hh => ?_, he.known⟩
  have hfits := he.fits d hd hh
  cases hholding : hd.holding with
  | nothing =>
    rw [hholding] at hfits
    exact hfits
  | entering msg slot =>
    rw [hholding] at hfits
    obtain ⟨sl, hsl, hid⟩ := hfits
    obtain ⟨sl', hsl', hid'⟩ := hids slot sl hsl
    exact ⟨sl', hsl', hid'.symm ▸ hid⟩
  | owning slot =>
    rw [hholding] at hfits
    obtain ⟨sl, hsl, r, hr, hconn, hid⟩ := hfits
    obtain ⟨sl', hsl', hid'⟩ := hids slot sl hsl
    exact ⟨sl', hsl', r, hr, hconn, hid.trans hid'.symm⟩

theorem newSlot (he : Enrolled slots registered handlers) {ref : ℕ} (hfresh : slots ref = none)
    (sl : WorkerSlot) : Enrolled (Function.update slots ref (some sl)) registered handlers :=
  he.reslot fun _ sl' hsl => ⟨sl', slots_newSlot hfresh sl hsl, rfl⟩

theorem disconnect (he : Enrolled slots registered handlers) (ref : ℕ) :
    Enrolled (Function.update slots ref ((slots ref).map WorkerSlot.disconnect)) registered
      handlers := by
  refine he.reslot fun ref' sl hsl => ?_
  obtain ⟨sl', hsl', _, hid⟩ := slots_disconnect ref hsl
  exact ⟨sl', hsl', hid⟩

theorem register (he : Enrolled slots registered handlers) {msg : Message} {slot : ℕ}
    {r : Registered} (hh : handlers c = some (.registering msg slot)) (hconn : r.conn = c)
    (hid : mustParse msg.text = .ok r.id) :
    Enrolled slots (r :: registered) (Function.update handlers c (some (.acking slot))) := by
  constructor
  · intro d hd hh'
    rcases Table.of_update hh' with ⟨rfl, rfl⟩ | ⟨hdc, hh'⟩
    · obtain ⟨sl, hsl, hid'⟩ := he.fits _ _ hh
      exact ⟨sl, hsl, r, List.mem_cons_self .., hconn, Except.ok.inj (hid.symm.trans hid')⟩
    · have hfits := he.fits d hd hh'
      cases hholding : hd.holding with
      | nothing =>
        rw [hholding] at hfits
        intro r' hr'
        rcases List.mem_cons.mp hr' with rfl | hr'
        · rw [hconn]
          exact Ne.symm hdc
        · exact hfits r' hr'
      | entering msg slot =>
        rw [hholding] at hfits
        exact hfits
      | owning slot =>
        rw [hholding] at hfits
        obtain ⟨sl, hsl, r', hr', hown⟩ := hfits
        exact ⟨sl, hsl, r', List.mem_cons_of_mem _ hr', hown⟩
  · intro r' hr'
    by_cases hrc : r'.conn = c
    · rw [hrc, Function.update_self]
      nofun
    · rw [Function.update_of_ne hrc]
      rcases List.mem_cons.mp hr' with rfl | hr'
      · exact absurd hconn hrc
      · exact he.known r' hr'

end Enrolled

namespace Server

variable {s s' : Server}

theorem Sessions.move {a : Action} (hm : Move s a s') (hres : s.Resolved) (h : s.Sessions) :
    s'.Sessions := by
  cases hm with
  | @accept c hnew =>
    refine h.goto fun r hr hconn => ?_
    exact h.known r hr (hconn ▸ hnew)
  | peer hh => exact h
  | reply hcmd hmsg => exact h
  | registerThrew hh hin => exact h
  | enterThrew hh => exact h
  | register hh hin hmsg htype hid hboot =>
    exact (h.newSlot hres.fresh_slot _).goto ⟨_, Function.update_self .., hid⟩
  | enterFabric hh hrec => exact h.register hh rfl (parseRegistration_ok hrec).1
  | @close c slot hh =>
    refine Enrolled.goto (h.disconnect slot) ?_
    obtain ⟨sl, hsl, hown⟩ := h.fits _ _ hh
    refine ⟨sl.disconnect, (Function.update_self ..).trans ?_, hown⟩
    rw [hsl]
    rfl
  | hangup hh | hangupWorker hh | undecodable hh _ _ | readReply hh _ _ _ _
  | readIgnored hh _ _ _ _ | readRequest hh _ _ _ | ack hh | answer hh | answerLost hh
  | sendCommand hh _ | sendLost hh | enterSlot hh | find hh _ | findNone hh
  | settle hh | locked hh | nextReq hh | shutdown hh | call hh | checkFailed hh | check hh _ _
  | insert hh | unsend hh | wake hh _ _ | erase hh | sweep hh | down hh _ =>
    exact h.keep hh rfl

theorem Initial.sessions (h : Initial s) : s.Sessions := by
  obtain ⟨limits, rng, rfl⟩ := h
  constructor
  · intro c h hh
    cases hh
  · intro r hr
    cases hr

end Server

/-! ## What the steps do to the Fabric -/

section Fabric

variable {f f' : Fabric}

theorem worker_wkRegister {msg : Message} {rec : WorkerRecord}
    (hrec : parseRegistration f.epoch msg = .ok rec) (w : WorkerId) :
    (wkRegister f msg).worker w = if rec.id = w then some rec else f.worker w := by
  unfold wkRegister
  rw [hrec]
  show (f.workers.insert rec.id.str rec)[w.str]? = _
  rw [Table.get_insert]
  exact if_congr Id.str_eq_iff rfl rfl

theorem worker_locked (sec : Section) (s : Shared) :
    (sec.run s).2.fabric.workers = s.fabric.workers :=
  exec_workers (e := .locked sec) (r := (sec.run s).1) rfl

/-- The worker stays connected under the boot, and its authority records and residencies under the
boot stay as they are. -/
structure Spares (f f' : Fabric) (w : WorkerId) (boot : WorkerBootId) : Prop where
  worker : ∃ rec, f'.worker w = some rec ∧ rec.connected = true ∧ rec.boot = boot
  authority : ∀ (k : Bytes) (ar : AdapterAuthorityRecord), f.authority[k]? = some ar →
    ar.fence.worker = w → ar.fence.boot = boot → f'.authority[k]? = some ar
  residencies : ∀ (k : Bytes) (r : ResidencyRecord), f.residencies[k]? = some r →
    r.worker = w → r.boot = boot → f'.residencies[k]? = some r

theorem Spares.refl {w : WorkerId} {boot : WorkerBootId}
    (h : ∃ rec, f.worker w = some rec ∧ rec.connected = true ∧ rec.boot = boot) :
    Spares f f w boot :=
  ⟨h, fun _ _ har _ _ => har, fun _ _ hr _ _ => hr⟩

theorem spares_onWorkerDown {w id : WorkerId} {boot : WorkerBootId} (hne : w ≠ id)
    (h : ∃ rec, f.worker w = some rec ∧ rec.connected = true ∧ rec.boot = boot) :
    Spares f (f.onWorkerDown id) w boot := by
  refine ⟨?_, fun k ar har hworker _ => ?_, fun k r hr hworker _ => ?_⟩
  · rwa [worker_onWorkerDown, if_neg (Ne.symm hne)]
  · show (f.authority.map fun _ ar => _)[k]? = some ar
    rw [Std.ExtTreeMap.getElem?_map, har, Option.map_some, if_neg (by simpa [hworker] using hne)]
  · show (f.residencies.map fun _ r => _)[k]? = some r
    rw [Std.ExtTreeMap.getElem?_map, hr, Option.map_some, if_neg (hworker ▸ hne)]

end Fabric

/-! ## Superseded connections -/

namespace Server

variable {s s' : Server}

/-- A worker whose latest connection is running is connected under the boot that it registered. -/
def LatestLive (s : Server) : Prop :=
  ∀ w r, s.lastOver w = some r → s.Running r.conn →
    ∃ rec, s.shared.fabric.worker w = some rec ∧ rec.connected = true ∧ rec.boot = r.boot

/-- If the handler of a connection returns in the step, that spares every worker that has registered
over it and, later, over another one whose handler runs. -/
def EndSpares (s s' : Server) : Prop :=
  ∀ c, s.Running c → ¬ s'.Running c →
    ∀ w r, (∃ r₁ ∈ s.history.registered, r₁.conn = c ∧ r₁.id = w) → s.lastOver w = some r →
      r.conn ≠ c → s.Running r.conn → Spares s.shared.fabric s'.shared.fabric w r.boot

/-- If the step tells the Fabric that a worker is down, the worker has not registered over another
running connection since. -/
def DownsLatest (s : Server) (a : Action) : Prop :=
  ∀ c slot sl, a = .advance c → s.handlers c = some (.downing slot) → s.slots slot = some sl →
    ∀ r, s.lastOver sl.id = some r → r.conn ≠ c → ¬ s.Running r.conn

/-- A handler returns in a step that tells the Fabric so, or that leaves what is shared alone. -/
theorem Move.ends {a : Action} (hm : Move s a s') {c : ℕ} (hrun : s.Running c)
    (hend : ¬ s'.Running c) : s'.shared = s.shared ∨
      ∃ slot sl, a = .advance c ∧ s.handlers c = some (.downing slot) ∧ s.slots slot = some sl ∧
        s'.shared.fabric = s.shared.fabric.onWorkerDown sl.id := by
  cases hm with
  | @down d slot sl hh hsl =>
    by_cases hcd : c = d
    · subst hcd
      exact .inr ⟨slot, sl, rfl, hh, hsl, rfl⟩
    · obtain ⟨hd, hhd, hover⟩ := hrun
      exact absurd ⟨hd, (goto_handlers _ hcd _).trans hhd, hover⟩ hend
  | locked hh => exact absurd (running_goto rfl hrun) hend
  | nextReq hh => exact absurd (running_goto rfl hrun) hend
  | shutdown hh => exact absurd (running_goto rfl hrun) hend
  | enterFabric hh hrec => exact absurd (running_goto rfl hrun) hend
  | _ => exact .inl rfl

theorem Move.latestLive {a : Action} (hm : Move s a s') (hsess : s.Sessions) (h : s.LatestLive)
    (hspares : EndSpares s s') : s'.LatestLive := by
  intro w r hlast hrun'
  have hrun (hmem : r ∈ s.history.registered) : s.Running r.conn :=
    (hm.running hrun').resolve_right (hsess.known r hmem)
  -- where neither the workers nor the registrations change
  have hframe (hreg : s'.history.registered = s.history.registered)
      (hworkers : s'.shared.fabric.workers = s.shared.fabric.workers) :
      ∃ rec, s'.shared.fabric.worker w = some rec ∧ rec.connected = true ∧ rec.boot = r.boot := by
    rw [lastOver_congr hreg] at hlast
    unfold Fabric.worker
    rw [hworkers]
    exact h w r hlast (hrun (lastOver_mem hlast).1)
  cases hm with
  | locked hh => exact hframe rfl (worker_locked _ _)
  | @enterFabric c msg slot rec hh hrec =>
    rw [lastOver_cons rfl] at hlast
    show ∃ rec', (wkRegister s.shared.fabric msg).worker w = some rec' ∧ _
    rw [worker_wkRegister hrec]
    by_cases hw : rec.id = w
    · rw [if_pos hw] at hlast ⊢
      cases hlast
      exact ⟨rec, rfl, (parseRegistration_ok hrec).2.2, rfl⟩
    · rw [if_neg hw] at hlast ⊢
      exact h w r hlast (hrun (lastOver_mem hlast).1)
  | @down c slot sl hh hsl =>
    have hlast : s.lastOver w = some r := hlast
    have hconn : r.conn ≠ c := by
      rintro rfl
      exact not_running_goto rfl hrun'
    have hr := hrun (lastOver_mem hlast).1
    by_cases hw : w = sl.id
    · obtain ⟨sl', hsl', r₁, hr₁, hconn₁, hid₁⟩ := hsess.fits _ _ hh
      obtain rfl : sl = sl' := Option.some.inj (hsl.symm.trans hsl')
      exact (hspares c ⟨_, hh, rfl⟩ (not_running_goto rfl) w r
        ⟨r₁, hr₁, hconn₁, hid₁.trans hw.symm⟩ hlast hconn hr).worker
    · show ∃ rec, (s.shared.fabric.onWorkerDown sl.id).worker w = some rec ∧ _
      rw [worker_onWorkerDown, if_neg (Ne.symm hw)]
      exact h w r hlast hr
  | _ => exact hframe rfl rfl

theorem endSpares_iff {a : Action} (hm : Move s a s') (hsess : s.Sessions) (h : s.LatestLive) :
    EndSpares s s' ↔ DownsLatest s a := by
  constructor
  · intro hspares c slot sl ha hh hsl r hlast hconn hrun
    subst ha
    cases hm with
    | @down _ slot' sl' hh' hsl' =>
      cases hh.symm.trans hh'
      obtain rfl : sl = sl' := Option.some.inj (hsl.symm.trans hsl')
      obtain ⟨sl', hsl', r₁, hr₁, hconn₁, hid₁⟩ := hsess.fits _ _ hh
      obtain rfl : sl = sl' := Option.some.inj (hsl.symm.trans hsl')
      obtain ⟨rec, hrec, hconnected, _⟩ := (hspares c ⟨_, hh, rfl⟩ (not_running_goto rfl) sl.id r
        ⟨r₁, hr₁, hconn₁, hid₁⟩ hlast hconn hrun).worker
      -- but the step has just marked it disconnected
      have hrec : (s.shared.fabric.onWorkerDown sl.id).worker sl.id = some rec := hrec
      rw [worker_onWorkerDown, if_pos rfl] at hrec
      obtain ⟨rec₀, _, rfl⟩ := Option.map_eq_some_iff.mp hrec
      cases hconnected
    | _ => rename_i hh'; cases hh.symm.trans hh'
  · intro hdown c hrunc hend w r _ hlast hconn hrun
    rcases hm.ends hrunc hend with hshared | ⟨slot, sl, rfl, hh, hsl, hfabric⟩
    · rw [hshared]
      exact .refl (h w r hlast hrun)
    · rw [hfabric]
      refine spares_onWorkerDown ?_ (h w r hlast hrun)
      rintro rfl
      exact hdown c slot sl rfl hh hsl r hlast hconn hrun

theorem Initial.latestLive (h : Initial s) : s.LatestLive := by
  obtain ⟨limits, rng, rfl⟩ := h
  intro w r hlast
  cases hlast

/-- Along a run, the end of a connection spares the workers that have registered over a running one
since exactly when no handler tears down such a worker. -/
theorem superseded_iff {s₀ : Server} {path : List (Action × Server)} (h₀ : Initial s₀)
    (h : Run.Each Step s₀ path) :
    Run.Each (fun s _ s' => EndSpares s s') s₀ path ↔
      Run.Each (fun s a _ => DownsLatest s a) s₀ path :=
  h.iff_of_step (I := fun s => s.Resolved ∧ s.Sessions) (P := LatestLive)
    (fun hs hI => ⟨hI.1.move (act_move hs), hI.2.move (act_move hs) hI.1⟩)
    (fun hs hI hP hspares => (act_move hs).latestLive hI.2 hP hspares)
    (fun hs hI hP => endSpares_iff (act_move hs) hI.2 hP)
    ⟨h₀.resolved, h₀.sessions⟩ h₀.latestLive

/-! ### An old connection that ends late -/

open Fabric (sampleWorker)

/-- A check for `DownsLatest`. -/
def downsLatest (s : Server) : Action → Bool
  | .advance c =>
    match s.handlers c with
    | some (.downing slot) => (s.slots slot).all fun sl => (s.lastOver sl.id).all fun r =>
        r.conn = c || (s.handlers r.conn).all Handler.isOver
    | _ => true
  | _ => true

theorem downsLatest_of_check {s : Server} {a : Action} (h : s.downsLatest a = true) :
    DownsLatest s a := by
  rintro c slot sl rfl hh hsl r hlast hconn ⟨hd, hhd, hrun⟩
  simp [downsLatest, hh, hsl, hlast, hconn, hhd, hrun] at h

/-- The worker registers again over another connection, and the old one ends on an undecodable
message. -/
def endsQuietly : List Action :=
  joins 0 workerRegistration ++ joins 1 freshRegistration ++ [.peer 0 [], .read 0]

theorem superseded_iff_sample :
    ∃ path : List (Action × Server), path.map Prod.fst = endsQuietly ∧
      Run.Each (fun s _ s' => EndSpares s s') start path := by
  obtain ⟨path, hpath, hlabels, hlatest⟩ :=
    Run.exists_checked act (fun s a _ => s.downsLatest a) endsQuietly start (by decide +kernel)
      (by decide +kernel)
  exact ⟨path, hlabels, (superseded_iff start_initial hpath).mpr
    (hlatest.imp fun _ _ _ => downsLatest_of_check)⟩

/-- The worker restarts and registers again before its old connection ends. -/
def endsLate : List Action :=
  joins 0 workerRegistration ++ joins 1 freshRegistration ++ [.hangup 0, .advance 0, .advance 0]

theorem superseded_counterexample :
    ∃ s₀ as s a s', Initial s₀ ∧ Run.Steps Step s₀ as s ∧ s.Step a s' ∧ ¬ EndSpares s s' := by
  obtain ⟨s, hs, hdown, hrun₀, hrun₁, hregistered⟩ :
      ∃ s : Server, Run.tryExec act endsLate start = some s ∧
        (s.act (.advance 0)).map (fun s' => ((s'.handlers 0).map Handler.isOver,
          (s'.shared.fabric.worker sampleWorker.id).map (·.connected))) =
          some (some true, some false) ∧
        (s.handlers 0).map Handler.isOver = some false ∧
        (s.handlers 1).map Handler.isOver = some false ∧
        s.history.registered.map (fun r => (r.conn, r.id)) =
          [(1, sampleWorker.id), (0, sampleWorker.id)] :=
    Run.exists_tryExec (by decide +kernel)
  obtain ⟨s', hs', hdown⟩ := Option.map_eq_some_iff.mp hdown
  obtain ⟨hover, hdisconnected⟩ := Prod.mk.inj hdown
  obtain ⟨r₁, older, hreg, hr₁, hrest⟩ := List.map_eq_cons_iff.mp hregistered
  obtain ⟨r₀, _, rfl, hr₀, _⟩ := List.map_eq_cons_iff.mp hrest
  obtain ⟨hconn₁, hid₁⟩ := Prod.mk.inj hr₁
  have hlast : s.lastOver sampleWorker.id = some r₁ := by simp [lastOver, hreg, hid₁]
  refine ⟨start, endsLate, s, .advance 0, s', start_initial, .of_tryExec hs, hs', fun hspares => ?_⟩
  have hover : s'.Over 0 := Option.map_eq_some_iff.mp hover
  obtain ⟨rec, hrec, hconnected, _⟩ := (hspares 0 (Option.map_eq_some_iff.mp hrun₀)
    (fun hrun => hrun.not_over hover) sampleWorker.id r₁ ⟨r₀, by simp [hreg], Prod.mk.inj hr₀⟩ hlast
    (by simp [hconn₁]) (hconn₁ ▸ Option.map_eq_some_iff.mp hrun₁)).worker
  rw [hrec, Option.map_some, hconnected] at hdisconnected
  cases hdisconnected

end Server

end Coordinator

end AdapterFabric
