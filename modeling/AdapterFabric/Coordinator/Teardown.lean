import AdapterFabric.Coordinator.LiveWorker
import AdapterFabric.Coordinator.Move

/-!
# AdapterFabric.Coordinator.Teardown

What the end of a worker's connection does to the requests that wait for a worker.

* `disconnect_isolation_iff`: it fails no other worker's requests exactly when none are waiting,
  since the sweep takes every entry of the pending table.
* `no_orphan_iff`: no request is left to wait on a connection that has been swept exactly when no
  command is sent over one.
-/

namespace AdapterFabric

namespace Coordinator

namespace Server

/-- An entry of the pending table that is not done. -/
def Open (s : Server) (n : UInt64) (pend : ℕ) : Prop :=
  s.pending[n]? = some pend ∧ ∃ pd, s.pends pend = some pd ∧ pd.done = false

/-- The call of the handler of `c` has sent its command over `sock` and waits for `pend`. -/
def WaitsOn (s : Server) (c pend sock : ℕ) : Prop :=
  ∃ call slot sl, s.handlers c = some (.calling call (.waiting slot pend)) ∧
    s.slots slot = some sl ∧ sl.sock = sock

end Server

def Handler.isWaiting : Handler → Bool
  | calling _ (.waiting _ _) => true
  | _ => false

/-- The handler has executed `abort_pending_for_worker`. -/
def Handler.isSwept : Handler → Bool
  | downing _ => true
  | finished _ => true
  | _ => false

namespace Server

def Swept (s : Server) (d : ℕ) : Prop := ∃ h, s.handlers d = some h ∧ h.isSwept = true

/-- Every open entry whose caller waits targets a connection that has not been swept. -/
def NoOrphan (s : Server) : Prop :=
  ∀ n pend c d, s.Open n pend → s.WaitsOn c pend d → ¬ s.Swept d

/-- If the action sends a command while its entry is open, it sends it over a connection that has
not been swept. -/
def SendsInTime (s : Server) : Action → Prop
  | .send c true => ∀ call slot pend sl n,
    s.handlers c = some (.calling call (.sending slot pend)) → s.slots slot = some sl →
      s.Open n pend → ¬ s.Swept sl.sock
  | _ => True

section NoOrphan

variable {s s' : Server}

theorem waitsOn_goto {c c' pend d : ℕ} {hd : Handler} (hwaiting : hd.isWaiting = false)
    (h : (s.goto c hd).WaitsOn c' pend d) : c' ≠ c ∧ s.WaitsOn c' pend d := by
  obtain ⟨call, slot, sl, hh, hsl, hsock⟩ := h
  rcases Table.of_update hh with ⟨-, rfl⟩ | ⟨hc, hh⟩
  · cases hwaiting
  · exact ⟨hc, call, slot, sl, hh, hsl, hsock⟩

theorem swept_goto {c d : ℕ} {hd : Handler} (h : (s.goto c hd).Swept d)
    (hswept : hd.isSwept = true → s.Swept c) : s.Swept d := by
  obtain ⟨h', hh, hs⟩ := h
  rcases Table.of_update hh with ⟨rfl, rfl⟩ | ⟨-, hh⟩
  · exact hswept hs
  · exact ⟨h', hh, hs⟩

theorem NoOrphan.goto (h : NoOrphan s) {c : ℕ} {hd : Handler} (hwaiting : hd.isWaiting = false)
    (hswept : hd.isSwept = true → s.Swept c) : NoOrphan (s.goto c hd) := by
  intro n pend c' d hopen hwaits hsw
  exact h n pend c' d hopen (waitsOn_goto hwaiting hwaits).2 (swept_goto hsw hswept)

theorem NoOrphan.close {pending : Std.ExtTreeMap UInt64 ℕ compare} {pends : ℕ → Option Pending}
    (h : NoOrphan s)
    (hopen : ∀ n pend, Open { s with pending, pends } n pend → s.Open n pend) :
    NoOrphan { s with pending, pends } :=
  fun n pend c d ho hw hsw => h n pend c d (hopen n pend ho) hw hsw

theorem NoOrphan.slots {slots : ℕ → Option WorkerSlot} (h : NoOrphan s)
    (hsock : ∀ c pend d, WaitsOn { s with slots } c pend d → s.WaitsOn c pend d) :
    NoOrphan { s with slots } :=
  fun n pend c d ho hw hsw => h n pend c d ho (hsock c pend d hw) hsw

theorem NoOrphan.erase (h : NoOrphan s) (n : UInt64) :
    NoOrphan { s with pending := s.pending.erase n } := by
  refine h.close fun k pend ⟨hk, hpd⟩ => ⟨?_, hpd⟩
  have hk : (s.pending.erase n)[k]? = some pend := hk
  exact Table.of_erase hk

theorem NoOrphan.settle (h : NoOrphan s) (pend : ℕ) (msg : Message) :
    NoOrphan { s with
      pends := Function.update s.pends pend (some { done := true, result := msg }) } := by
  refine h.close fun n p ⟨hn, pd, hpd, hopen⟩ => ⟨hn, ?_⟩
  rcases Table.of_update hpd with ⟨-, rfl⟩ | ⟨-, hpd⟩
  · cases hopen
  · exact ⟨pd, hpd, hopen⟩

theorem not_open_abortAll {n : UInt64} {pend : ℕ} :
    ¬ Open { s with pends := abortAll (s.pending.toList.map Prod.snd) s.pends } n pend := by
  rintro ⟨hn, pd, hpd, hopen⟩
  have hpd : abortAll (s.pending.toList.map Prod.snd) s.pends pend = some pd := hpd
  rw [abortAll_apply, if_pos (mem_pendingRefs.mpr ⟨n, hn⟩)] at hpd
  obtain ⟨pd₀, _, rfl⟩ := Option.map_eq_some_iff.mp hpd
  rw [Pending.abort_done] at hopen
  cases hopen

theorem NoOrphan.insert (h : NoOrphan s) (hres : s.Resolved) {c : ℕ} {hd : Handler} (n : UInt64)
    (hwaiting : hd.isWaiting = false) (hswept : hd.isSwept = false) :
    NoOrphan ({ s with
      pending := s.pending.insert n s.nextRef
      pends := Function.update s.pends s.nextRef (some {}), nextRef := s.nextRef + 1 }.goto c
        hd) := by
  rintro k pend c' d ⟨hk, pd, hpd, hopen⟩ hw hsw
  obtain ⟨_, hw⟩ := waitsOn_goto hwaiting hw
  have hw : s.WaitsOn c' pend d := hw
  have hsw : s.Swept d := swept_goto hsw fun hs => by rw [hswept] at hs; cases hs
  have hfresh : pend ≠ s.nextRef := by
    obtain ⟨call, slot, sl, hh, _⟩ := hw
    have := hres.pends_lt pend (hres.pend hh (by simp [Handler.pendRefs, CallPhase.pendRefs]))
    omega
  have hk : (s.pending.insert n s.nextRef)[k]? = some pend := hk
  have hpd : Function.update s.pends s.nextRef (some {}) pend = some pd := hpd
  rw [Function.update_of_ne hfresh] at hpd
  rcases Table.of_insert hk with ⟨_, hnew⟩ | hk
  · exact hfresh hnew.symm
  · exact h k pend c' d ⟨hk, pd, hpd, hopen⟩ hw hsw

theorem NoOrphan.newSlot (h : NoOrphan s) (hres : s.Resolved) (sl : WorkerSlot) :
    NoOrphan { s with slots := Function.update s.slots s.nextRef (some sl) } := by
  refine h.slots ?_
  rintro c pend d ⟨call, slot, sl', hh, hsl, hsock⟩
  have hold := hres.slots_lt slot (hres.slot hh (by simp [Handler.slotRefs, CallPhase.slotRefs]))
  have hsl : Function.update s.slots s.nextRef (some sl) slot = some sl' := hsl
  rw [Function.update_of_ne (by omega)] at hsl
  exact ⟨call, slot, sl', hh, hsl, hsock⟩

theorem NoOrphan.disconnect (h : NoOrphan s) (ref : ℕ) :
    NoOrphan { s with
      slots := Function.update s.slots ref ((s.slots ref).map WorkerSlot.disconnect) } := by
  refine h.slots ?_
  rintro c pend d ⟨call, slot, sl, hh, hsl, hsock⟩
  have hsl : Function.update s.slots ref ((s.slots ref).map WorkerSlot.disconnect) slot =
    some sl := hsl
  by_cases hs : slot = ref
  · rw [hs, Function.update_self] at hsl
    obtain ⟨sl₀, hsl₀, rfl⟩ := Option.map_eq_some_iff.mp hsl
    exact ⟨call, slot, sl₀, hh, by rw [hs]; exact hsl₀, hsock⟩
  · rw [Function.update_of_ne hs] at hsl
    exact ⟨call, slot, sl, hh, hsl, hsock⟩

/-- The caller of a command that has just been sent waits for its own entry. -/
theorem waitsOn_sent {c c' slot pend pend' d : ℕ} {call : Call} {sl : WorkerSlot}
    (hsl : s.slots slot = some sl)
    (h : (s.goto c (.calling call (.waiting slot pend))).WaitsOn c' pend' d) :
    (pend' = pend ∧ d = sl.sock) ∨ s.WaitsOn c' pend' d := by
  obtain ⟨call', slot', sl', hh, hsl', hsock⟩ := h
  rcases Table.of_update hh with ⟨-, hcall⟩ | ⟨-, hh⟩
  · cases hcall
    have hsl' : s.slots slot = some sl' := hsl'
    obtain rfl : sl = sl' := Option.some.inj (hsl.symm.trans hsl')
    exact .inl ⟨rfl, hsock.symm⟩
  · exact .inr ⟨call', slot', sl', hh, hsl', hsock⟩

theorem noOrphan_of_timely {a : Action} (hm : Move s a s') (hres : s.Resolved) (h : NoOrphan s)
    (htimely : SendsInTime s a) : NoOrphan s' := by
  cases hm with
  | peer hh => exact h
  | reply hcmd hmsg => exact h
  | registerThrew hh hin => exact h
  | enterThrew hh => exact h
  | register hh hin hmsg htype hid hboot => exact (h.newSlot hres _).goto rfl nofun
  | settle hh => exact (h.settle _ _).goto rfl nofun
  | insert hh => exact h.insert hres _ rfl rfl
  | unsend hh => exact (h.erase _).goto rfl nofun
  | erase hh => exact (h.erase _).goto rfl nofun
  | close hh => exact (h.disconnect _).goto rfl nofun
  | sweep hh =>
    intro n pend c d hopen
    exact absurd hopen (not_open_abortAll (s := s))
  | down hh hsl => exact h.goto rfl fun _ => ⟨_, hh, rfl⟩
  | @sendCommand c call slot pend sl hh hsl =>
    intro n pend' c' d hopen hw hswept
    have hsw : s.Swept d := swept_goto hswept nofun
    rcases waitsOn_sent hsl hw with ⟨rfl, rfl⟩ | hw
    · exact htimely call slot pend' sl n hh hsl hopen hsw
    · exact h n pend' c' d hopen hw hsw
  | accept hnew => exact h.goto rfl nofun
  | hangup hh => exact h.goto rfl nofun
  | hangupWorker hh => exact h.goto rfl nofun
  | undecodable hh hin hmsg => exact h.goto rfl nofun
  | readReply hh hin hmsg htype hid => exact h.goto rfl nofun
  | readIgnored hh hin hmsg htype hid => exact h.goto rfl nofun
  | readRequest hh hin hmsg htype => exact h.goto rfl nofun
  | ack hh => exact h.goto rfl nofun
  | answer hh => exact h.goto rfl nofun
  | answerLost hh => exact h.goto rfl nofun
  | sendLost hh => exact h.goto rfl nofun
  | enterSlot hh => exact h.goto rfl nofun
  | enterFabric hh hrec => exact h.goto rfl nofun
  | find hh hpend => exact h.goto rfl nofun
  | findNone hh => exact h.goto rfl nofun
  | locked hh => exact h.goto rfl nofun
  | nextReq hh => exact h.goto rfl nofun
  | shutdown hh => exact h.goto rfl nofun
  | call hh => exact h.goto rfl nofun
  | checkFailed hh => exact h.goto rfl nofun
  | check hh hsl hconn => exact h.goto rfl nofun
  | wake hh hpd hdone => exact h.goto rfl nofun

theorem timely_of_noOrphan {a : Action} (hm : Move s a s') (h : NoOrphan s') :
    SendsInTime s a := by
  cases a with
  | send c delivered =>
    cases delivered with
    | false => trivial
    | true =>
      intro call slot pend sl n hh hsl hopen hsw
      cases hm with
      | ack hh' => cases hh.symm.trans hh'
      | answer hh' => cases hh.symm.trans hh'
      | @sendCommand _ call' slot' pend' sl' hh' hsl' =>
        cases hh.symm.trans hh'
        refine h n pend c sl.sock hopen ⟨call, slot, sl, Function.update_self .., hsl, rfl⟩ ?_
        obtain ⟨hd, hhd, hswept⟩ := hsw
        refine ⟨hd, ?_, hswept⟩
        have hne : sl.sock ≠ c := by
          intro heq
          rw [heq, hh] at hhd
          cases hhd
          cases hswept
        exact (Function.update_of_ne hne _ _).trans hhd
  | _ => trivial

end NoOrphan

theorem Initial.noOrphan {s : Server} (h : Initial s) : NoOrphan s := by
  obtain ⟨limits, rng, rfl⟩ := h
  rintro n pend c d _ ⟨call, slot, sl, hh, _⟩
  cases hh

/-- In every state of a run no open entry is waited for on a swept connection, exactly when no
command whose entry is open is sent over one. -/
theorem no_orphan_iff {s₀ : Server} {path : List (Action × Server)} (h₀ : Initial s₀)
    (h : Run.Each Step s₀ path) :
    (∀ x ∈ path, NoOrphan x.2) ↔ Run.Each (fun s a _ => SendsInTime s a) s₀ path :=
  h.always_iff (I := Resolved) (P := NoOrphan) (fun hs hres => hres.move (act_move hs))
    (fun hs hres hP =>
      ⟨timely_of_noOrphan (act_move hs), noOrphan_of_timely (act_move hs) hres hP⟩)
    h₀.resolved h₀.noOrphan

/-! ## Isolation -/

/-- The command of the request `n` was sent to `w`, and its call waits for the entry `pend`. -/
def SentTo (s : Server) (w : WorkerId) (n : UInt64) (pend : ℕ) : Prop :=
  ∃ c call slot sl, s.handlers c = some (.calling call (.waiting slot pend)) ∧ call.reqId = n ∧
    s.slots slot = some sl ∧ sl.id = w

/-- When a worker's handler reads a reply to the waiting call next, the call may return it. -/
def CanReturn (s : Server) (c : ℕ) (call : Call) : Prop :=
  ∀ d slot frame rest msg, s.handlers d = some (.reading (some slot)) →
    s.inbound d = frame :: rest → decodeMessage frame = .ok msg → msg.type ≠ .wkRegister →
    msg.reqId = call.reqId →
      ∃ as s', Run.Steps Step s as s' ∧
        ⟨⟨c, call.reqId, call.workerId, call.fwd⟩, msg⟩ ∈ s'.history.returned

/-- A request whose entry is open can always do so. -/
theorem canReturn_of_open {s : Server} {c slot pend : ℕ} {call : Call}
    (halive : s.terminated = false)
    (hh : s.handlers c = some (.calling call (.waiting slot pend)))
    (hopen : s.Open call.reqId pend) (hid : call.reqId ≠ 0) : s.CanReturn c call := by
  intro d slot' frame rest msg hd hin hmsg htype hreply
  have hdc : d ≠ c := by
    rintro rfl
    cases hd.symm.trans hh
  obtain ⟨hpending, pd, hpd, _⟩ := hopen
  let s₁ := { s with inbound := Function.update s.inbound d rest }.goto d (.finding msg slot')
  let s₂ := s₁.goto d (.settling msg slot' pend)
  let s₃ := { s₂ with
    pends := Function.update s.pends pend (some { done := true, result := msg }) }.goto d
      (.reading (some slot'))
  let s₄ := s₃.goto c (.calling call (.erasing msg))
  have hread : s.Step (.read d) s₁ := by
    unfold Step
    rw [act_read halive hd hin]
    unfold receive
    rw [hmsg]
    dsimp only
    rw [if_neg htype, if_pos (by rw [hreply]; exact hid)]
  have hfind : s₁.Step (.advance d) s₂ := by
    refine (act_advance (s := s₁) (c := d) halive (goto_self ..)).trans ?_
    have hentry : s₁.pending[msg.reqId]? = some pend := hreply ▸ hpending
    dsimp only [advance]
    rw [hentry]
  have hsettle : s₂.Step (.advance d) s₃ :=
    act_advance (s := s₂) (c := d) halive (goto_self ..)
  have hwait : s₃.handlers c = some (.calling call (.waiting slot pend)) :=
    (goto_handlers _ (Ne.symm hdc) _).trans ((goto_handlers _ (Ne.symm hdc) _).trans
      ((goto_handlers _ (Ne.symm hdc) _).trans hh))
  have hwake : s₃.Step (.advance c) s₄ := by
    refine (act_advance (s := s₃) halive hwait).trans ?_
    have hdone : s₃.pends pend = some { done := true, result := msg } := Function.update_self ..
    dsimp only [advance, callStep]
    rw [hdone]
    rfl
  have herase : s₄.Step (.advance c)
      ({ s₄ with pending := s.pending.erase call.reqId }.answerCall c call msg) :=
    act_advance (s := s₄) (c := c) halive (goto_self ..)
  refine ⟨_, _, .cons hread (.cons hfind (.cons hsettle (.cons hwake (.single herase)))), ?_⟩
  exact List.mem_cons_self ..

/-- From `s` to `s'` no request is failed but those whose command was sent to `w`, and those that
wait for other workers stay pending and can still return a reply. -/
structure Isolated (s s' : Server) (w : WorkerId) : Prop where
  failed : ∀ n pend, s.Open n pend → ¬ s'.Open n pend → s.SentTo w n pend
  others : ∀ n pend c call slot, s.Open n pend → ¬ s.SentTo w n pend →
    s.handlers c = some (.calling call (.waiting slot pend)) → call.reqId = n →
      s'.Open n pend ∧ s'.CanReturn c call

/-- If the step is the sweep of a worker's handler, it is isolated. -/
def SweepIsolated (s : Server) (a : Action) (s' : Server) : Prop :=
  ∀ d slot sl, a = .advance d → s.handlers d = some (.sweeping slot) → s.slots slot = some sl →
    Isolated s s' sl.id

/-- If the step is the sweep of a worker's handler, no command is pending but those sent to it. -/
def SweepsItsOwn (s : Server) (a : Action) : Prop :=
  ∀ d slot sl, a = .advance d → s.handlers d = some (.sweeping slot) → s.slots slot = some sl →
    ∀ n pend, s.Open n pend → s.SentTo sl.id n pend

theorem isolated_sweep_iff {s s' : Server} {d slot : ℕ} {w : WorkerId}
    (hs : s.Step (.advance d) s') (hh : s.handlers d = some (.sweeping slot)) :
    Isolated s s' w ↔ ∀ n pend, s.Open n pend → s.SentTo w n pend := by
  have hclosed (n : UInt64) (pend : ℕ) : ¬ s'.Open n pend := by
    cases act_move hs with
    | sweep hh' => exact not_open_abortAll (s := s)
    | _ => rename_i hh'; cases hh.symm.trans hh'
  constructor
  · intro h n pend hopen
    exact h.failed n pend hopen (hclosed n pend)
  · intro h
    refine ⟨fun n pend hopen _ => h n pend hopen, ?_⟩
    intro n pend c call slot' hopen hother
    exact absurd (h n pend hopen) hother

/-- Along a run, the end of a worker's connection fails only what was sent to that worker exactly
when, at each sweep, nothing else is pending. -/
theorem disconnect_isolation_iff {s₀ : Server} {path : List (Action × Server)}
    (h : Run.Each Step s₀ path) :
    Run.Each SweepIsolated s₀ path ↔ Run.Each (fun s a _ => SweepsItsOwn s a) s₀ path := by
  refine h.iff_of_step (I := fun _ => True) (P := fun _ => True) (fun _ _ => trivial)
    (fun _ _ _ _ => trivial) (fun {s a s'} hs _ _ => ?_) trivial trivial
  constructor
  · intro hiso d slot sl ha hh hsl
    subst ha
    exact (isolated_sweep_iff hs hh).mp (hiso d slot sl rfl hh hsl)
  · intro hown d slot sl ha hh hsl
    subst ha
    exact (isolated_sweep_iff hs hh).mpr (hown d slot sl rfl hh hsl)

/-! ### Sample runs -/

open Fabric (sampleWorker)

def start : Server := { shared := { fabric := .ofLimits ∅, rng := .instanceInit } }

theorem start_initial : Initial start := ⟨∅, .instanceInit, rfl⟩

/-- A worker connects, and its registration is entered and acknowledged. -/
def joins (c : ℕ) (registration : Message) : List Action :=
  [.accept c, .peer c (encodeMessage registration), .read c, .advance c, .advance c, .send c true]

/-- A client connects and sends a request whose handler forwards it at once, up to the look at the
slot's flag. -/
def asks (c : ℕ) (request : Message) : List Action :=
  [.accept c, .peer c (encodeMessage request), .read c, .advance c, .advance c, .advance c]

/-- The command is entered into the pending table and sent. -/
def forwards (c : ℕ) : List Action := [.advance c, .send c true]

/-- The connection of a worker ends. -/
def leaves (c : ℕ) : List Action := [.hangup c, .advance c, .advance c, .advance c]

def otherWorker : WorkerId := ⟨.ofBytes [11]⟩

def otherRegistration : Message :=
  { type := .wkRegister, text := otherWorker.str, text2 := sampleWorker.boot.str }

def otherRequest : Message := { deactivateRequest with text2 := otherWorker.str }

/-- Where the call of a handler waits: its request id, slot and entry. -/
def waitingAt (s : Server) (c : ℕ) : Option (UInt64 × ℕ × ℕ) :=
  match s.handlers c with
  | some (.calling call (.waiting slot pend)) => some (call.reqId, slot, pend)
  | _ => none

theorem waitingAt_eq {s : Server} {c slot pend : ℕ} {n : UInt64} :
    s.waitingAt c = some (n, slot, pend) ↔
      ∃ call, s.handlers c = some (.calling call (.waiting slot pend)) ∧ call.reqId = n := by
  constructor
  · intro h
    unfold waitingAt at h
    split at h
    · rename_i call slot' pend' hh
      cases h
      exact ⟨call, hh, rfl⟩
    · cases h
  · rintro ⟨call, hh, rfl⟩
    unfold waitingAt
    rw [hh]

/-- The worker leaves after the handler of the request has seen it connected, and before the
command is sent. -/
def lateSend : List Action :=
  joins 0 workerRegistration ++ asks 1 deactivateRequest ++ leaves 0 ++ forwards 1

theorem no_orphan_counterexample :
    ∃ s₀ as s, Initial s₀ ∧ Run.Steps Step s₀ as s ∧ ¬ NoOrphan s := by
  obtain ⟨s, hs, hwait, hslot, hpending, hpend, hswept⟩ :
      ∃ s : Server, Run.tryExec act lateSend start = some s ∧ s.waitingAt 1 = some (1, 0, 1) ∧
        (s.slots 0).map (·.sock) = some 0 ∧ s.pending[(1 : UInt64)]? = some 1 ∧
        (s.pends 1).map (·.done) = some false ∧
        (s.handlers 0).map Handler.isSwept = some true :=
    Run.exists_tryExec (by decide +kernel)
  obtain ⟨call, hh, _⟩ := waitingAt_eq.mp hwait
  obtain ⟨sl, hsl, hsock⟩ := Option.map_eq_some_iff.mp hslot
  refine ⟨start, lateSend, s, start_initial, .of_tryExec hs, fun h => ?_⟩
  exact h 1 1 1 0 ⟨hpending, Option.map_eq_some_iff.mp hpend⟩ ⟨call, 0, sl, hh, hsl, hsock⟩
    (Option.map_eq_some_iff.mp hswept)

/-- If the action sends a command, it sends it over a connection that has not been swept. -/
def sendsUnswept (s : Server) : Action → Bool
  | .send c true =>
    match s.handlers c with
    | some (.calling _ (.sending slot _)) =>
      (s.slots slot).all fun sl => !(s.handlers sl.sock).any Handler.isSwept
    | _ => true
  | _ => true

theorem sendsInTime_of_unswept {s : Server} {a : Action} (h : s.sendsUnswept a = true) :
    SendsInTime s a := by
  unfold SendsInTime
  split
  · rintro call slot pend sl n hh hsl _ ⟨hd, hhd, hswept⟩
    simp [sendsUnswept, hh, hsl, hhd, hswept] at h
  · trivial

/-- The worker leaves after the command is sent. -/
def earlySend : List Action :=
  joins 0 workerRegistration ++ asks 1 deactivateRequest ++ forwards 1 ++ leaves 0

theorem no_orphan_iff_sample :
    ∃ path : List (Action × Server), path.map Prod.fst = earlySend ∧ ∀ x ∈ path, NoOrphan x.2 := by
  obtain ⟨path, hpath, hlabels, hunswept⟩ :=
    Run.exists_checked act (fun s a _ => s.sendsUnswept a) earlySend start (by decide +kernel)
      (by decide +kernel)
  exact ⟨path, hlabels, (no_orphan_iff start_initial hpath).mpr
    (hunswept.imp fun _ _ _ => sendsInTime_of_unswept)⟩

/-- The slot that the handler is about to sweep for. -/
def sweepingAt (s : Server) (c : ℕ) : Option ℕ :=
  match s.handlers c with
  | some (.sweeping slot) => some slot
  | _ => none

theorem sweepingAt_some {s : Server} {c slot : ℕ} (h : s.sweepingAt c = some slot) :
    s.handlers c = some (.sweeping slot) := by
  unfold sweepingAt at h
  split at h
  · rename_i slot' hh
    cases h
    exact hh
  · cases h

/-- A request waits for the worker that leaves. -/
def ownWaiting : List Action :=
  joins 0 workerRegistration ++ asks 1 deactivateRequest ++ forwards 1 ++ [.hangup 0, .advance 0]

theorem disconnect_isolation_iff_sample :
    ∃ s s', Run.Steps Step start ownWaiting s ∧ s.Step (.advance 0) s' ∧ s.Open 1 1 ∧
      SweepIsolated s (.advance 0) s' := by
  obtain ⟨s, hs, hnext, hsweeping, hwait, hpending, hpend⟩ :
      ∃ s : Server, Run.tryExec act ownWaiting start = some s ∧
        (s.act (.advance 0)).isSome = true ∧ s.sweepingAt 0 = some 0 ∧
        s.waitingAt 1 = some (1, 0, 1) ∧ s.pending.toList = [(1, 1)] ∧
        (s.pends 1).map (·.done) = some false :=
    Run.exists_tryExec (by decide +kernel)
  have hentry (n : UInt64) (pend : ℕ) : s.pending[n]? = some pend ↔ n = 1 ∧ pend = 1 := by
    rw [← Std.ExtTreeMap.mem_toList_iff_getElem?_eq_some, hpending]
    simp
  obtain ⟨s', hs'⟩ := Option.isSome_iff_exists.mp hnext
  have hpath : Run.Each Step s [(.advance 0, s')] := ⟨hs', trivial⟩
  refine ⟨s, s', .of_tryExec hs, hs',
    ⟨(hentry 1 1).mpr ⟨rfl, rfl⟩, Option.map_eq_some_iff.mp hpend⟩,
    ((disconnect_isolation_iff hpath).mpr ⟨?_, trivial⟩).1⟩
  rintro d slot sl ha hh hsl n pend ⟨hn, _⟩
  cases ha
  cases (sweepingAt_some hsweeping).symm.trans hh
  obtain ⟨rfl, rfl⟩ := (hentry n pend).mp hn
  obtain ⟨call, hcall, hreq⟩ := waitingAt_eq.mp hwait
  exact ⟨1, call, 0, sl, hcall, hreq, hsl, rfl⟩

/-- A request waits for one worker when another one leaves. -/
def leftWaiting : List Action :=
  joins 0 workerRegistration ++ joins 1 otherRegistration ++ asks 2 otherRequest ++ forwards 2 ++
    [.hangup 0, .advance 0]

theorem disconnect_isolation_counterexample :
    ∃ s₀ as s a s', Initial s₀ ∧ Run.Steps Step s₀ as s ∧ s.Step a s' ∧
      ¬ SweepIsolated s a s' := by
  obtain ⟨s, hs, hnext, hsweeping, hid₀, hid₁, hwaiting, hpending, hpend⟩ :
      ∃ s : Server, Run.tryExec act leftWaiting start = some s ∧
        (s.act (.advance 0)).isSome = true ∧ s.sweepingAt 0 = some 0 ∧
        (s.slots 0).map (·.id) = some sampleWorker.id ∧ (s.slots 1).map (·.id) = some otherWorker ∧
        (List.range 3).map s.waitingAt = [none, none, some (1, 1, 2)] ∧
        s.pending[(1 : UInt64)]? = some 2 ∧ (s.pends 2).map (·.done) = some false :=
    Run.exists_tryExec (by decide +kernel)
  have hsteps := Run.Steps.of_tryExec hs
  obtain ⟨s', hs'⟩ := Option.isSome_iff_exists.mp hnext
  refine ⟨start, leftWaiting, s, .advance 0, s', start_initial, hsteps, hs', fun hiso => ?_⟩
  obtain ⟨sl, hsl, hid⟩ := Option.map_eq_some_iff.mp hid₀
  have hsent := (isolated_sweep_iff hs' (sweepingAt_some hsweeping)).mp
    (hiso 0 0 sl rfl (sweepingAt_some hsweeping) hsl) 1 2
    ⟨hpending, Option.map_eq_some_iff.mp hpend⟩
  -- the only call that waits has sent its command to the other worker
  obtain ⟨c, call, slot, sl', hh, hn, hsl', hid'⟩ := hsent
  have hc : c < 3 := by
    by_contra hlarge
    have hnone : s.handlers c = none := handlers_of_steps hsteps fun a ha => by
      have hconn : a.conn < 3 := by
        revert a
        decide +kernel
      omega
    cases hnone.symm.trans hh
  have hwait : s.waitingAt c = some (1, slot, 2) := waitingAt_eq.mpr ⟨call, hh, hn⟩
  have hget : ((List.range 3).map s.waitingAt)[c]? = some (some (1, slot, 2)) := by
    simp [hc, hwait]
  rw [hwaiting] at hget
  obtain rfl : slot = 1 := by
    obtain rfl | rfl | rfl : c = 0 ∨ c = 1 ∨ c = 2 := by omega
    · cases hget
    · cases hget
    · cases hget
      rfl
  rw [hsl', Option.map_some, hid', hid] at hid₁
  exact absurd hid₁ (by decide +kernel)

end Server

end Coordinator

end AdapterFabric
