import AdapterFabric.Coordinator.Teardown

/-!
# AdapterFabric.Coordinator.Registration

What a registration does to the coordinator when one of its identities does not parse.

* `Move.parsed`: the handlers that are about to enter a registration have parsed what they read of
  it.
* `contained_iff`: no step ends the process, or enters a registration that cannot be accepted,
  exactly when each step parses the identities that it is the first to need.
-/

namespace AdapterFabric

namespace Coordinator

/-- The identities that a registration cannot do without parse. -/
structure Legible (msg : Message) : Prop where
  worker : ∃ id : WorkerId, mustParse msg.text = .ok id
  boot : ∃ boot : WorkerBootId, mustParse msg.text2 = .ok boot

/-- So does its node, if it names one: the registration can be accepted. -/
structure Identified (msg : Message) : Prop extends Legible msg where
  node : ∃ node, parseNode msg.text4 = .ok node

theorem Identified.registration {msg : Message} (h : Identified msg) (epoch : CoordinatorEpoch) :
    ∃ rec, parseRegistration epoch msg = .ok rec := by
  obtain ⟨⟨⟨id, hid⟩, ⟨boot, hboot⟩⟩, ⟨node, hnode⟩⟩ := h
  unfold parseRegistration
  rw [hid, hboot, hnode]
  exact ⟨_, rfl⟩

/-- What the handler has parsed of the registration that it is about to enter. -/
def Handler.Parsed : Handler → Prop
  | inserting msg _ => Legible msg
  | registering msg _ => Identified msg
  | _ => True

/-- The registration whose slot the handler is about to enter. -/
def Handler.insertion : Handler → Option Message
  | inserting msg _ => some msg
  | _ => none

/-- A slot that is about to be entered into `workers_` is not there, and no other handler's. -/
structure Unlisted (workers : StrMap ℕ) (handlers : ℕ → Option Handler) : Prop where
  absent : ∀ c msg slot, handlers c = some (.inserting msg slot) →
    ∀ text : Bytes, workers[text]? ≠ some slot
  alone : ∀ c c' msg msg' slot, handlers c = some (.inserting msg slot) →
    handlers c' = some (.inserting msg' slot) → c = c'

abbrev Server.Unentered (s : Server) : Prop := Unlisted s.workers s.handlers

namespace Unlisted

variable {workers : StrMap ℕ} {handlers : ℕ → Option Handler} {c : ℕ}

theorem goto (hu : Unlisted workers handlers) {h : Handler}
    (hnot : ∀ msg slot, h ≠ .inserting msg slot) :
    Unlisted workers (Function.update handlers c (some h)) := by
  have hold {d : ℕ} {msg : Message} {slot : ℕ}
      (hd : Function.update handlers c (some h) d = some (.inserting msg slot)) :
      handlers d = some (.inserting msg slot) := by
    rcases Table.of_update hd with ⟨-, hnew⟩ | ⟨-, hd⟩
    · exact absurd hnew (hnot msg slot)
    · exact hd
  exact ⟨fun d msg slot hd => hu.absent d msg slot (hold hd),
    fun d d' msg msg' slot hd hd' => hu.alone d d' msg msg' slot (hold hd) (hold hd')⟩

theorem newSlot (hu : Unlisted workers handlers) {msg : Message} {slot : ℕ}
    (hworkers : ∀ text : Bytes, workers[text]? ≠ some slot)
    (hhandlers : ∀ d msg', handlers d ≠ some (.inserting msg' slot)) :
    Unlisted workers (Function.update handlers c (some (.inserting msg slot))) := by
  have hcases {d : ℕ} {msg' : Message} {slot' : ℕ}
      (hd : Function.update handlers c (some (.inserting msg slot)) d =
        some (.inserting msg' slot')) :
      (d = c ∧ slot' = slot) ∨ handlers d = some (.inserting msg' slot') := by
    rcases Table.of_update hd with ⟨hdc, hnew⟩ | ⟨-, hd⟩
    · cases hnew
      exact .inl ⟨hdc, rfl⟩
    · exact .inr hd
  constructor
  · intro d msg' slot' hd text
    rcases hcases hd with ⟨-, rfl⟩ | hd
    · exact hworkers text
    · exact hu.absent d msg' slot' hd text
  · intro d d' msg₁ msg₂ slot' hd hd'
    rcases hcases hd with ⟨hdc, rfl⟩ | hold
    · rcases hcases hd' with ⟨hdc', -⟩ | hold'
      · exact hdc.trans hdc'.symm
      · exact absurd hold' (hhandlers d' msg₂)
    · rcases hcases hd' with ⟨-, rfl⟩ | hold'
      · exact absurd hold (hhandlers d msg₁)
      · exact hu.alone d d' msg₁ msg₂ slot' hold hold'

theorem enter (hu : Unlisted workers handlers) {msg : Message} {slot : ℕ} {text : Bytes}
    (hh : handlers c = some (.inserting msg slot)) :
    Unlisted (workers.insert text slot)
      (Function.update handlers c (some (.registering msg slot))) := by
  have hold {d : ℕ} {msg' : Message} {slot' : ℕ}
      (hd : Function.update handlers c (some (.registering msg slot)) d =
        some (.inserting msg' slot')) :
      d ≠ c ∧ handlers d = some (.inserting msg' slot') := by
    rcases Table.of_update hd with ⟨-, hnew⟩ | hd
    · cases hnew
    · exact hd
  constructor
  · intro d msg' slot' hd k hk
    obtain ⟨hdc, hd⟩ := hold hd
    rcases Table.of_insert hk with ⟨-, rfl⟩ | hk
    · exact hdc (hu.alone d c msg' msg slot hd hh)
    · exact hu.absent d msg' slot' hd k hk
  · intro d d' msg₁ msg₂ slot' hd hd'
    exact hu.alone d d' msg₁ msg₂ slot' (hold hd).2 (hold hd').2

end Unlisted

namespace Server

variable {s s' : Server}

theorem Unentered.move {a : Action} (hm : Move s a s') (hres : s.Resolved)
    (h : s.Unentered) : s'.Unentered := by
  cases hm with
  | accept hnew => exact h.goto nofun
  | peer hh => exact h
  | reply hcmd hmsg => exact h
  | registerThrew hh hin => exact h
  | enterThrew hh => exact h
  | register hh hin hmsg htype hid hboot =>
    have hfresh (ref : ℕ) (href : (s.slots ref).isSome = true) : ref ≠ s.nextRef := by
      have := hres.slots_lt ref href
      omega
    refine h.newSlot (fun text href => ?_) fun d msg' hd => ?_
    · exact hfresh _ (hres.workers text _ href) rfl
    · exact hfresh _ (hres.slot hd (List.mem_singleton_self _)) rfl
  | enterSlot hh => exact h.enter hh
  | hangup hh | hangupWorker hh | undecodable hh _ _ | readReply hh _ _ _ _
  | readIgnored hh _ _ _ _ | readRequest hh _ _ _ | ack hh | answer hh | answerLost hh
  | sendCommand hh _ | sendLost hh | enterFabric hh _ | find hh _ | findNone hh
  | settle hh | locked hh | nextReq hh | shutdown hh | call hh | checkFailed hh | check hh _ _
  | insert hh | unsend hh | wake hh _ _ | erase hh | close hh | sweep hh | down hh _ =>
    exact h.goto nofun

/-! ## Registrations that cannot be accepted -/

/-- The step is one that the handler of the action takes for the registration: it reads it, enters
its slot, or enters it into the Fabric. -/
inductive TakesUp (s : Server) : Action → Message → Prop where
  | read {c slot frame rest msg} (hh : s.handlers c = some (.reading slot))
    (hin : s.inbound c = frame :: rest) (hmsg : decodeMessage frame = .ok msg)
    (htype : msg.type = .wkRegister) : TakesUp s (.read c) msg
  | enterSlot {c msg slot} (hh : s.handlers c = some (.inserting msg slot)) :
    TakesUp s (.advance c) msg
  | enterFabric {c msg slot} (hh : s.handlers c = some (.registering msg slot)) :
    TakesUp s (.advance c) msg

/-- No exception leaves the thread, and a registration that cannot be accepted enters neither the
transport's table nor the Fabric's. -/
structure Contained (s : Server) (a : Action) (s' : Server) : Prop where
  alive : s'.terminated = false
  rejected : ∀ msg, TakesUp s a msg → ¬ Identified msg →
    s'.workers = s.workers ∧ s'.shared.fabric.workers = s.shared.fabric.workers

/-- The worker and the boot of a registration parse when it is read, and its node when its slot is
about to be entered. -/
structure Parses (s : Server) (a : Action) : Prop where
  read : ∀ c msg, a = .read c → s.TakesUp a msg → Legible msg
  enter : ∀ c msg slot, a = .advance c → s.handlers c = some (.inserting msg slot) →
    ∃ node, parseNode msg.text4 = .ok node

/-- A registration that is read ends the process unless its worker and its boot parse. -/
theorem receive_alive {c : ℕ} {slot : Option ℕ} {frame : Bytes} {msg : Message}
    (hmsg : decodeMessage frame = .ok msg) (htype : msg.type = .wkRegister)
    (h : (s.receive c slot frame).terminated = false) : Legible msg := by
  unfold receive at h
  rw [hmsg] at h
  dsimp only at h
  rw [if_pos htype] at h
  split at h
  · rename_i id boot hid hboot
    exact ⟨⟨id, hid⟩, ⟨boot, hboot⟩⟩
  · cases h

/-- Nothing else that is read does. -/
theorem receive_terminated {c : ℕ} {slot : Option ℕ} {frame : Bytes}
    (halive : s.terminated = false)
    (h : ∀ msg, decodeMessage frame = .ok msg → msg.type = .wkRegister → Legible msg) :
    (s.receive c slot frame).terminated = false := by
  unfold receive
  split
  · exact halive
  · rename_i msg hmsg
    split
    · rename_i htype
      obtain ⟨⟨id, hid⟩, ⟨boot, hboot⟩⟩ := h msg hmsg htype
      rw [hid, hboot]
      exact halive
    · cases slot with
      | none => exact halive
      | some slot =>
        dsimp only
        split
        · exact halive
        · exact halive

/-- A step of handlers that have parsed what they enter ends the process only if the registration
that it reads does not parse. -/
theorem alive_of_parses {a : Action} (hs : s.Step a s') (halive : s.terminated = false)
    (hparsed : ∀ c h, s.handlers c = some h → h.Parsed) (hp : Parses s a) :
    s'.terminated = false := by
  cases act_move hs with
  | @registerThrew c slot frame rest hh hin =>
    have hs' := (act_read halive hh hin).symm.trans hs
    rw [← Option.some.inj hs']
    exact receive_terminated halive fun msg hmsg htype =>
      hp.read c msg rfl (.read hh hin hmsg htype)
  | @enterThrew c msg slot hh =>
    obtain ⟨rec, hrec⟩ := (hparsed c _ hh : Identified msg).registration s.shared.fabric.epoch
    have hs' := (act_advance halive hh).symm.trans hs
    dsimp only [advance] at hs'
    rw [hrec] at hs'
    rw [← Option.some.inj hs']
    exact halive
  | _ => exact halive

theorem contained_iff_parses {a : Action} (hs : s.Step a s')
    (hun : s.Unentered) (halive : s.terminated = false)
    (hparsed : ∀ c h, s.handlers c = some h → h.Parsed) : Contained s a s' ↔ Parses s a := by
  constructor
  · intro hc
    refine ⟨?_, ?_⟩
    · rintro c msg rfl htakes
      cases htakes with
      | read hh hin hmsg htype =>
        have hs' := (act_read halive hh hin).symm.trans hs
        have hterminated := hc.alive
        rw [← Option.some.inj hs'] at hterminated
        exact receive_alive hmsg htype hterminated
    · rintro c msg slot rfl hh
      by_contra hnode
      have hsame := (hc.rejected msg (.enterSlot hh) fun hid => hnode hid.node).1
      have hs' := (act_advance halive hh).symm.trans hs
      rw [← Option.some.inj hs'] at hsame
      exact hun.absent c msg slot hh msg.text (Table.insert_eq_self.mp hsame)
  · intro hp
    refine ⟨alive_of_parses hs halive hparsed hp, fun msg htakes hnot => ?_⟩
    cases htakes with
    | read hh hin hmsg htype =>
      cases act_move hs with
      | _ => exact ⟨rfl, rfl⟩
    | @enterSlot c msg slot hh =>
      have hlegible : Legible msg := hparsed c _ hh
      exact absurd ⟨hlegible, hp.enter c msg slot rfl hh⟩ hnot
    | @enterFabric c msg slot hh => exact absurd (hparsed c _ hh) hnot

theorem Move.parsed {a : Action} (hm : Move s a s') (hp : Parses s a)
    (hparsed : ∀ c h, s.handlers c = some h → h.Parsed) :
    ∀ c h, s'.handlers c = some h → h.Parsed := by
  have hgoto {c : ℕ} {h : Handler} (hnew : h.Parsed) :
      ∀ d h', Function.update s.handlers c (some h) d = some h' → h'.Parsed := by
    intro d h' hd
    rcases Table.of_update hd with ⟨-, rfl⟩ | ⟨-, hd⟩
    · exact hnew
    · exact hparsed d h' hd
  cases hm with
  | peer hh => exact hparsed
  | reply hcmd hmsg => exact hparsed
  | registerThrew hh hin => exact hparsed
  | enterThrew hh => exact hparsed
  | register hh hin hmsg htype hid hboot => exact hgoto ⟨⟨_, hid⟩, ⟨_, hboot⟩⟩
  | @enterSlot c msg slot hh =>
    have hlegible : Legible msg := hparsed c _ hh
    exact hgoto (h := .registering msg slot) ⟨hlegible, hp.enter c msg slot rfl hh⟩
  | _ => exact hgoto trivial

theorem Initial.unentered (h : Initial s) : s.Unentered := by
  obtain ⟨limits, rng, rfl⟩ := h
  constructor
  · intro c msg slot hh
    cases hh
  · intro c c' msg msg' slot hh
    cases hh

/-- Along a run, no step ends the process or enters a registration that cannot be accepted exactly
when each step parses what it is the first to need. -/
theorem contained_iff {s₀ : Server} {path : List (Action × Server)} (h₀ : Initial s₀)
    (h : Run.Each Step s₀ path) :
    Run.Each Contained s₀ path ↔ Run.Each (fun s a _ => Parses s a) s₀ path := by
  refine h.iff_of_step (I := fun s => s.Resolved ∧ s.Unentered)
    (P := fun s => s.terminated = false ∧ ∀ c h, s.handlers c = some h → h.Parsed)
    ?_ ?_ ?_ ⟨h₀.resolved, h₀.unentered⟩ ?_
  · rintro s a s' hs ⟨hres, hun⟩
    exact ⟨hres.move (act_move hs), hun.move (act_move hs) hres⟩
  · rintro s a s' hs ⟨-, hun⟩ ⟨halive, hparsed⟩ hc
    have hp := (contained_iff_parses hs hun halive hparsed).mp hc
    exact ⟨hc.alive, (act_move hs).parsed hp hparsed⟩
  · rintro s a s' hs ⟨-, hun⟩ ⟨halive, hparsed⟩
    exact contained_iff_parses hs hun halive hparsed
  · obtain ⟨limits, rng, rfl⟩ := h₀
    exact ⟨rfl, nofun⟩

/-! ### Sample runs -/

/-- A check for `Parses`. -/
def parses (s : Server) : Action → Bool
  | .read c => (s.inbound c).head?.all fun frame =>
    match decodeMessage frame with
    | .error _ => true
    | .ok msg =>
      (mustParse msg.text : Except Error WorkerId).isOk &&
        (mustParse msg.text2 : Except Error WorkerBootId).isOk
  | .advance c =>
    match s.handlers c with
    | some (.inserting msg _) => (parseNode msg.text4).isOk
    | _ => true
  | _ => true

theorem exists_of_isOk {α : Type} {x : Except Error α} (h : x.isOk = true) : ∃ a, x = .ok a := by
  cases x with
  | error e => cases h
  | ok a => exact ⟨a, rfl⟩

theorem parses_of_check {a : Action} (h : s.parses a = true) : Parses s a := by
  constructor
  · rintro c msg rfl htakes
    cases htakes with
    | read hh hin hmsg htype =>
      simp only [parses, hin, List.head?_cons, Option.all_some, hmsg, Bool.and_eq_true] at h
      exact ⟨exists_of_isOk h.1, exists_of_isOk h.2⟩
  · rintro c msg slot rfl hh
    simp only [parses, hh] at h
    exact exists_of_isOk h

theorem contained_iff_sample :
    ∃ path : List (Action × Server), path.map Prod.fst = joins 0 workerRegistration ∧
      Run.Each Contained start path := by
  obtain ⟨path, hpath, hlabels, hparses⟩ :=
    Run.exists_checked act (fun s a _ => s.parses a) (joins 0 workerRegistration) start
      (by decide +kernel) (by decide +kernel)
  exact ⟨path, hlabels, (contained_iff start_initial hpath).mpr
    (hparses.imp fun _ _ _ => parses_of_check)⟩

/-- A registration whose node is no identity. -/
def strayRegistration : Message := { workerRegistration with text4 := ascii "x" }

theorem strayRegistration_rejected : ¬ Identified strayRegistration := by
  rintro ⟨-, node, hnode⟩
  have hbad : (parseNode strayRegistration.text4).isOk = false := by decide +kernel
  rw [hnode] at hbad
  cases hbad

/-- It is entered into the transport's table, and then ends the process. -/
theorem contained_counterexample :
    ∃ s₀ as s s' s'', Initial s₀ ∧ Run.Steps Step s₀ as s ∧ s.Step (.advance 0) s' ∧
      ¬ Contained s (.advance 0) s' ∧ s'.Step (.advance 0) s'' ∧ s''.terminated = true := by
  obtain ⟨s, hs, hinserts, hempty, hended⟩ :
      ∃ s : Server, Run.tryExec act ((joins 0 strayRegistration).take 3) start = some s ∧
        (s.handlers 0).bind Handler.insertion = some strayRegistration ∧ s.workers.keys = [] ∧
        ((s.act (.advance 0)).bind fun s' => (s'.act (.advance 0)).map fun s'' =>
          (s'.workers.keys, s''.terminated)) = some ([strayRegistration.text], true) :=
    Run.exists_tryExec (by decide +kernel)
  obtain ⟨s', hs', hended⟩ := Option.bind_eq_some_iff.mp hended
  obtain ⟨s'', hs'', hended⟩ := Option.map_eq_some_iff.mp hended
  obtain ⟨hentered, hterminated⟩ := Prod.mk.inj hended
  obtain ⟨h, hh, hinserts⟩ := Option.bind_eq_some_iff.mp hinserts
  refine ⟨start, _, s, s', s'', start_initial, .of_tryExec hs, hs', fun hc => ?_, hs'', hterminated⟩
  have htakes : s.TakesUp (.advance 0) strayRegistration := by
    cases h with
    | inserting msg slot =>
      cases hinserts
      exact .enterSlot hh
    | _ => cases hinserts
  have hsame := (hc.rejected _ htakes strayRegistration_rejected).1
  rw [hsame, hempty] at hentered
  cases hentered

end Server

end Coordinator

end AdapterFabric
