import AdapterFabric.Coordinator.Move
import AdapterFabric.Coordinator.Numbering

/-!
# AdapterFabric.Coordinator.Ledger

What the handlers, the tables and the frames in flight have to do with the requests issued so far.

* `Ledger`: ids are issued, sent, answered and returned once each.
* `Wires`: what is in flight to a worker is to be answered, and what is in flight from one is an
  answer.
* `Tables`: entries of the pending table hold answers to their own ids.
* `Handler.Sound`: what a handler knows of the id that it draws or calls with.
-/

namespace AdapterFabric

namespace Coordinator

/-! ## Calls and their answers -/

/-- What `abort_pending_for_worker` leaves in an entry. -/
def workerDisconnected : Message :=
  { type := .wkError, ok := false, text := ascii "worker disconnected" }

/-- The errors that the coordinator makes up. -/
def CoordinatorError (m : Message) : Prop :=
  m = unknownWorker ∨ m = sendFailed ∨ m = workerDisconnected

def Called.command (call : Called) : Message := { call.fwd with reqId := call.reqId }

def Call.entry (call : Call) (c : ℕ) : Called := ⟨c, call.reqId, call.workerId, call.fwd⟩

/-- The command of the call was sent over `d`, which its worker was entered with. -/
def Addressed (H : History) (call : Called) (d : ℕ) : Prop :=
  ⟨d, call.workerId⟩ ∈ H.tabled ∧ ⟨d, call.workerId, call.command⟩ ∈ H.sent

/-- `p` is what the addressed worker replied to exactly the command of the call. -/
def Answers (H : History) (call : Called) (p : Replied) : Prop :=
  p ∈ H.replied ∧ p.cmd = call.command ∧ Addressed H call p.conn

/-- `m` is an error of the coordinator, or a worker's reply that carries the id `n`. -/
def Settles (H : History) (n : UInt64) (m : Message) : Prop :=
  CoordinatorError m ∨ ∃ p ∈ H.replied, p.reply = m ∧ m.reqId = n

/-- The connection of the slot is a worker's, and was entered under `w`. -/
def Names (W : ℕ → Prop) (slots : ℕ → Option WorkerSlot) (H : History) (w : Bytes) (ref : ℕ) :
    Prop :=
  ∃ sl, slots ref = some sl ∧ W sl.sock ∧ ⟨sl.sock, w⟩ ∈ H.tabled

/-! ## Invariants

`W` holds of the connections of workers. -/

/-- Ids are issued, sent, answered and returned once each. -/
structure Ledger (W : ℕ → Prop) (H : History) : Prop where
  ids : ∀ x ∈ H.issued, 0 < x.reqId.toNat ∧ x.reqId.toNat ≤ H.issued.length
  issued : (H.issued.map (·.reqId)).Nodup
  sentBy : ∀ x ∈ H.sent, W x.conn ∧ ∃ c, ⟨c, x.cmd.reqId⟩ ∈ H.issued
  sent : (H.sent.map (·.cmd.reqId)).Nodup
  repliedTo : ∀ p ∈ H.replied, p.reply.reqId = p.cmd.reqId ∧ ∃ w, ⟨p.conn, w, p.cmd⟩ ∈ H.sent
  replied : (H.replied.map (·.cmd.reqId)).Nodup
  entries : ∀ x ∈ H.inserted, ∀ y ∈ H.inserted, x.pend = y.pend → x.reqId = y.reqId
  returnedBy : ∀ r ∈ H.returned, ⟨r.call.conn, r.call.reqId⟩ ∈ H.issued
  returned : (H.returned.map (·.call.reqId)).Nodup

/-- Commands in flight have been sent and not been answered. Frames in flight from a worker are
registrations, replies, or carry no id. -/
structure Wires (W : ℕ → Prop) (H : History) (inbound : ℕ → List Bytes)
    (outbound : ℕ → List Message) : Prop where
  commands : ∀ d, ∀ cmd ∈ outbound d,
    (∃ w, ⟨d, w, cmd⟩ ∈ H.sent) ∧ ∀ p ∈ H.replied, p.cmd.reqId ≠ cmd.reqId
  distinct : ∀ d, ((outbound d).map (·.reqId)).Nodup
  frames : ∀ c, ∀ frame ∈ inbound c, ∀ msg, decodeMessage frame = .ok msg →
    (msg.type = .wkRegister → W c) ∧
      (W c → msg.type = .wkRegister ∨ msg.reqId = 0 ∨ ∃ p ∈ H.replied, p.reply = msg)

/-- The worker table names connections that were entered, and entries of the pending table hold
answers to their ids. -/
structure Tables (W : ℕ → Prop) (slots : ℕ → Option WorkerSlot) (H : History)
    (workers : StrMap ℕ) (pending : Std.ExtTreeMap UInt64 ℕ compare)
    (pends : ℕ → Option Pending) (nextRef : ℕ) : Prop where
  workers : ∀ (text : Bytes) (ref : ℕ), workers[text]? = some ref → Names W slots H text ref
  pending : ∀ (n : UInt64) (pend : ℕ), pending[n]? = some pend → ⟨n, pend⟩ ∈ H.inserted
  fresh : ∀ x ∈ H.inserted, x.pend < nextRef
  pends : ∀ x ∈ H.inserted, ∀ pd, pends x.pend = some pd →
    (pd.done = false → pd.result = {}) ∧ (pd.done = true → Settles H x.reqId pd.result)

/-- No command with the id has been sent. -/
def Unsent (H : History) (n : UInt64) : Prop := ∀ x ∈ H.sent, x.cmd.reqId ≠ n

/-- The id was issued to `c`, and its call has not returned. -/
def Outstanding (H : History) (c : ℕ) (n : UInt64) : Prop :=
  ⟨c, n⟩ ∈ H.issued ∧ ∀ r ∈ H.returned, r.call.reqId ≠ n

def CallPhase.Sound (W : ℕ → Prop) (slots : ℕ → Option WorkerSlot) (H : History) (call : Called) :
    CallPhase → Prop
  | checking slot => Unsent H call.reqId ∧ ∀ ref ∈ slot, Names W slots H call.workerId ref
  | inserting slot => Unsent H call.reqId ∧ Names W slots H call.workerId slot
  | sending slot pend =>
    Unsent H call.reqId ∧ Names W slots H call.workerId slot ∧ ⟨call.reqId, pend⟩ ∈ H.inserted
  | unsending => True
  | waiting _ pend => (∃ d, Addressed H call d) ∧ ⟨call.reqId, pend⟩ ∈ H.inserted
  | erasing result => (∃ d, Addressed H call d) ∧ Settles H call.reqId result

def Handler.Sound (W : ℕ → Prop) (slots : ℕ → Option WorkerSlot) (H : History) (c : ℕ) :
    Handler → Prop
  | reading none => True
  | reading (some _) => W c
  | inserting _ slot => W c ∧ ∃ sl, slots slot = some sl ∧ sl.sock = c
  | registering _ _ => W c
  | acking _ => W c
  | finding msg _ => W c ∧ ∃ p ∈ H.replied, p.reply = msg
  | settling msg _ pend =>
    W c ∧ (∃ p ∈ H.replied, p.reply = msg) ∧ ⟨msg.reqId, pend⟩ ∈ H.inserted
  | serving p =>
    ∃ held, Numbered held p ∧ ∀ n, held = some n → Outstanding H c n ∧ Unsent H n
  | calling call phase =>
    (∀ m, Numbered none (call.k m)) ∧ Outstanding H c call.reqId ∧
      phase.Sound W slots H (call.entry c)
  | closing _ => True
  | sweeping _ => True
  | downing _ => True
  | finished _ => True
  | returned _ => True

def AllSound (W : ℕ → Prop) (slots : ℕ → Option WorkerSlot) (H : History)
    (handlers : ℕ → Option Handler) : Prop :=
  ∀ c h, handlers c = some h → h.Sound W slots H c

/-! ## Growing histories -/

/-- From `H` to `H'` nothing is forgotten, and commands are sent, and calls return, with ids of `c`
only. -/
structure Grows (H H' : History) (c : ℕ) : Prop where
  issued : ∀ x ∈ H.issued, x ∈ H'.issued
  tabled : ∀ x ∈ H.tabled, x ∈ H'.tabled
  sent : ∀ x ∈ H.sent, x ∈ H'.sent
  replied : ∀ x ∈ H.replied, x ∈ H'.replied
  inserted : ∀ x ∈ H.inserted, x ∈ H'.inserted
  sentBy : ∀ x ∈ H'.sent, x ∈ H.sent ∨ ⟨c, x.cmd.reqId⟩ ∈ H.issued
  returnedBy : ∀ r ∈ H'.returned, r ∈ H.returned ∨ ⟨c, r.call.reqId⟩ ∈ H.issued

theorem Grows.refl (H : History) (c : ℕ) : Grows H H c :=
  ⟨fun _ h => h, fun _ h => h, fun _ h => h, fun _ h => h, fun _ h => h, fun _ => .inl,
    fun _ => .inl⟩

/-- Slots are made, or change but for their sockets. -/
def Resocketed (slots slots' : ℕ → Option WorkerSlot) : Prop :=
  ∀ ref sl, slots ref = some sl → ∃ sl', slots' ref = some sl' ∧ sl'.sock = sl.sock

theorem Resocketed.refl (slots : ℕ → Option WorkerSlot) : Resocketed slots slots :=
  fun _ sl h => ⟨sl, h, rfl⟩

theorem Resocketed.newSlot {slots : ℕ → Option WorkerSlot} {ref : ℕ} (hfresh : slots ref = none)
    (sl : WorkerSlot) : Resocketed slots (Function.update slots ref (some sl)) :=
  fun _ sl' hsl => ⟨sl', slots_newSlot hfresh sl hsl, rfl⟩

theorem Resocketed.disconnect (slots : ℕ → Option WorkerSlot) (ref : ℕ) :
    Resocketed slots
      (Function.update slots ref ((slots ref).map WorkerSlot.disconnect)) := by
  intro ref' sl hsl
  obtain ⟨sl', hsl', hsock, _⟩ := slots_disconnect ref hsl
  exact ⟨sl', hsl', hsock⟩

section Mono

variable {W : ℕ → Prop} {slots slots' : ℕ → Option WorkerSlot} {H H' : History} {c d : ℕ}

theorem Ledger.owner (h : Ledger W H) {n : UInt64} (hc : ⟨c, n⟩ ∈ H.issued)
    (hd : ⟨d, n⟩ ∈ H.issued) : c = d :=
  congrArg Issue.conn (List.inj_on_of_nodup_map h.issued hc hd rfl)

theorem Settles.grows (hg : Grows H H' c) {n : UInt64} {m : Message} (h : Settles H n m) :
    Settles H' n m := by
  rcases h with h | ⟨p, hp, h⟩
  · exact .inl h
  · exact .inr ⟨p, hg.replied p hp, h⟩

theorem Addressed.grows (hg : Grows H H' c) {call : Called} (h : Addressed H call d) :
    Addressed H' call d := ⟨hg.tabled _ h.1, hg.sent _ h.2⟩

theorem Names.grows (hg : Grows H H' c) (hslots : Resocketed slots slots') {w : Bytes} {ref : ℕ}
    (h : Names W slots H w ref) : Names W slots' H' w ref := by
  obtain ⟨sl, hsl, hw, htabled⟩ := h
  obtain ⟨sl', hsl', hsock⟩ := hslots ref sl hsl
  exact ⟨sl', hsl', hsock ▸ hw, hsock ▸ hg.tabled _ htabled⟩

theorem Unsent.grows (hled : Ledger W H) (hg : Grows H H' c) (hdc : d ≠ c) {n : UInt64}
    (hn : ⟨d, n⟩ ∈ H.issued) (h : Unsent H n) : Unsent H' n := by
  rintro x hx rfl
  rcases hg.sentBy x hx with hx | hx
  · exact h x hx rfl
  · exact hdc (hled.owner hn hx)

theorem Outstanding.grows (hled : Ledger W H) (hg : Grows H H' c) (hdc : d ≠ c) {n : UInt64}
    (h : Outstanding H d n) : Outstanding H' d n := by
  refine ⟨hg.issued _ h.1, ?_⟩
  rintro r hr rfl
  rcases hg.returnedBy r hr with hr | hr
  · exact h.2 r hr rfl
  · exact hdc (hled.owner h.1 hr)

theorem CallPhase.Sound.grows (hled : Ledger W H) (hg : Grows H H' c) (hdc : d ≠ c)
    (hslots : Resocketed slots slots') {call : Called} (hn : ⟨d, call.reqId⟩ ∈ H.issued)
    {phase : CallPhase} (h : phase.Sound W slots H call) : phase.Sound W slots' H' call := by
  cases phase with
  | checking slot =>
    exact ⟨h.1.grows hled hg hdc hn, fun ref href => (h.2 ref href).grows hg hslots⟩
  | inserting slot => exact ⟨h.1.grows hled hg hdc hn, h.2.grows hg hslots⟩
  | sending slot pend =>
    exact ⟨h.1.grows hled hg hdc hn, h.2.1.grows hg hslots, hg.inserted _ h.2.2⟩
  | unsending => trivial
  | waiting slot pend =>
    obtain ⟨⟨sock, haddr⟩, hins⟩ := h
    exact ⟨⟨sock, haddr.grows hg⟩, hg.inserted _ hins⟩
  | erasing result =>
    obtain ⟨⟨sock, haddr⟩, hresult⟩ := h
    exact ⟨⟨sock, haddr.grows hg⟩, hresult.grows hg⟩

/-- What a handler knows stays true whatever the others do. -/
theorem Handler.Sound.grows (hled : Ledger W H) (hg : Grows H H' c) (hdc : d ≠ c)
    (hslots : Resocketed slots slots') {h : Handler} (hs : h.Sound W slots H d) :
    h.Sound W slots' H' d := by
  have hreplied {msg : Message} (hmsg : ∃ p ∈ H.replied, p.reply = msg) :
      ∃ p ∈ H'.replied, p.reply = msg := by
    obtain ⟨p, hp, hmsg⟩ := hmsg
    exact ⟨p, hg.replied p hp, hmsg⟩
  cases h with
  | reading slot =>
    cases slot with
    | none => trivial
    | some slot => exact hs
  | inserting msg slot =>
    obtain ⟨hw, sl, hsl, hsock⟩ := hs
    obtain ⟨sl', hsl', hsock'⟩ := hslots slot sl hsl
    exact ⟨hw, sl', hsl', hsock'.trans hsock⟩
  | registering msg slot => exact hs
  | acking slot => exact hs
  | finding msg slot => exact ⟨hs.1, hreplied hs.2⟩
  | settling msg slot pend => exact ⟨hs.1, hreplied hs.2.1, hg.inserted _ hs.2.2⟩
  | serving p =>
    obtain ⟨held, hnum, hheld⟩ := hs
    refine ⟨held, hnum, fun n hn => ?_⟩
    obtain ⟨hout, hunsent⟩ := hheld n hn
    exact ⟨hout.grows hled hg hdc, hunsent.grows hled hg hdc hout.1⟩
  | calling call phase =>
    obtain ⟨hnum, hout, hphase⟩ := hs
    exact ⟨hnum, hout.grows hled hg hdc, hphase.grows hled hg hdc hslots hout.1⟩
  | closing slot => trivial
  | sweeping slot => trivial
  | downing slot => trivial
  | finished slot => trivial
  | returned slot => trivial

theorem AllSound.step {handlers : ℕ → Option Handler} {h : Handler} (hled : Ledger W H)
    (hall : AllSound W slots H handlers) (hg : Grows H H' c) (hslots : Resocketed slots slots')
    (hs : h.Sound W slots' H' c) :
    AllSound W slots' H' (Function.update handlers c (some h)) := by
  intro d hd hh
  rcases Table.of_update hh with ⟨rfl, rfl⟩ | ⟨hdc, hh⟩
  · exact hs
  · exact (hall d hd hh).grows hled hg hdc hslots

theorem AllSound.grows {handlers : ℕ → Option Handler} (hled : Ledger W H)
    (hall : AllSound W slots H handlers) (hg : ∀ c, Grows H H' c)
    (hslots : Resocketed slots slots') : AllSound W slots' H' handlers :=
  fun d h hh => (hall d h hh).grows hled (hg (d + 1)) (by omega) hslots

theorem Tables.grows {workers : StrMap ℕ} {pending : Std.ExtTreeMap UInt64 ℕ compare}
    {pends : ℕ → Option Pending} {nextRef : ℕ}
    (h : Tables W slots H workers pending pends nextRef) (hg : Grows H H' c)
    (hinserted : H'.inserted = H.inserted) (hslots : Resocketed slots slots') :
    Tables W slots' H' workers pending pends nextRef := by
  refine ⟨fun text ref href => (h.workers text ref href).grows hg hslots, ?_, ?_, ?_⟩
  · exact fun n pend hn => hg.inserted _ (h.pending n pend hn)
  · rw [hinserted]
    exact h.fresh
  · rw [hinserted]
    intro x hx pd hpd
    obtain ⟨hopen, hdone⟩ := h.pends x hx pd hpd
    exact ⟨hopen, fun hd => (hdone hd).grows hg⟩

theorem Wires.congr {inbound : ℕ → List Bytes} {outbound : ℕ → List Message}
    (h : Wires W H inbound outbound) (hsent : H'.sent = H.sent)
    (hreplied : H'.replied = H.replied) : Wires W H' inbound outbound := by
  constructor
  · rw [hsent, hreplied]
    exact h.commands
  · exact h.distinct
  · rw [hreplied]
    exact h.frames

end Mono

/-! ## Changing one component -/

section Ledger

variable {W : ℕ → Prop} {H H' : History}

theorem Ledger.congr (h : Ledger W H) (hissued : H'.issued = H.issued) (hsent : H'.sent = H.sent)
    (hreplied : H'.replied = H.replied) (hinserted : H'.inserted = H.inserted)
    (hreturned : H'.returned = H.returned) : Ledger W H' := by
  constructor
  · rw [hissued]
    exact h.ids
  · rw [hissued]
    exact h.issued
  · rw [hsent, hissued]
    exact h.sentBy
  · rw [hsent]
    exact h.sent
  · rw [hreplied, hsent]
    exact h.repliedTo
  · rw [hreplied]
    exact h.replied
  · rw [hinserted]
    exact h.entries
  · rw [hreturned, hissued]
    exact h.returnedBy
  · rw [hreturned]
    exact h.returned

theorem Ledger.empty (W : ℕ → Prop) : Ledger W {} := by
  constructor
  · nofun
  · exact List.nodup_nil
  · nofun
  · exact List.nodup_nil
  · nofun
  · exact List.nodup_nil
  · nofun
  · nofun
  · exact List.nodup_nil

/-- The next id is new as long as fewer than `2 ^ 64` are issued. -/
theorem Ledger.fresh_id (h : Ledger W H) (hbound : H.issued.length + 1 < 2 ^ 64) :
    (UInt64.ofNat (H.issued.length + 1)).toNat = H.issued.length + 1 ∧
      UInt64.ofNat (H.issued.length + 1) ∉ H.issued.map (·.reqId) := by
  have htoNat : (UInt64.ofNat (H.issued.length + 1)).toNat = H.issued.length + 1 :=
    UInt64.toNat_ofNat_of_lt' hbound
  refine ⟨htoNat, fun hmem => ?_⟩
  obtain ⟨x, hx, hid⟩ := List.mem_map.mp hmem
  have := (h.ids x hx).2
  rw [hid, htoNat] at this
  omega

theorem Ledger.issue (h : Ledger W H) (hbound : H.issued.length + 1 < 2 ^ 64) (c : ℕ) :
    Ledger W { H with
      issued := ⟨c, UInt64.ofNat (H.issued.length + 1)⟩ :: H.issued } := by
  obtain ⟨htoNat, hnew⟩ := h.fresh_id hbound
  refine ⟨fun x hx => ?_, List.nodup_cons.mpr ⟨hnew, h.issued⟩, fun x hx => ?_, h.sent,
    h.repliedTo, h.replied, h.entries, fun r hr => List.mem_cons_of_mem _ (h.returnedBy r hr),
    h.returned⟩
  · rw [List.length_cons]
    rcases List.mem_cons.mp hx with rfl | hx
    · rw [htoNat]
      omega
    · have := h.ids x hx
      omega
  · obtain ⟨hw, c', hc'⟩ := h.sentBy x hx
    exact ⟨hw, c', List.mem_cons_of_mem _ hc'⟩

theorem Ledger.unused (h : Ledger W H) {n : UInt64} (hnew : n ∉ H.issued.map (·.reqId)) :
    Unsent H n ∧ ∀ r ∈ H.returned, r.call.reqId ≠ n := by
  constructor
  · rintro x hx rfl
    obtain ⟨_, c, hc⟩ := h.sentBy x hx
    exact hnew (List.mem_map_of_mem (f := (·.reqId)) hc)
  · rintro r hr rfl
    exact hnew (List.mem_map_of_mem (f := (·.reqId)) (h.returnedBy r hr))

theorem Ledger.send (h : Ledger W H) {c : ℕ} {x : Sent} (hw : W x.conn)
    (hissued : ⟨c, x.cmd.reqId⟩ ∈ H.issued) (hunsent : Unsent H x.cmd.reqId) :
    Ledger W { H with sent := x :: H.sent } := by
  refine ⟨h.ids, h.issued, fun y hy => ?_, List.nodup_cons.mpr ⟨fun hmem => ?_, h.sent⟩,
    fun p hp => ?_, h.replied, h.entries, h.returnedBy, h.returned⟩
  · rcases List.mem_cons.mp hy with rfl | hy
    · exact ⟨hw, c, hissued⟩
    · exact h.sentBy y hy
  · obtain ⟨y, hy, hid⟩ := List.mem_map.mp hmem
    exact hunsent y hy hid
  · obtain ⟨hid, w, hsent⟩ := h.repliedTo p hp
    exact ⟨hid, w, List.mem_cons_of_mem _ hsent⟩

theorem Ledger.reply (h : Ledger W H) {p : Replied} (hid : p.reply.reqId = p.cmd.reqId)
    (hsent : ∃ w, ⟨p.conn, w, p.cmd⟩ ∈ H.sent) (hnew : ∀ q ∈ H.replied, q.cmd.reqId ≠ p.cmd.reqId) :
    Ledger W { H with replied := p :: H.replied } := by
  refine ⟨h.ids, h.issued, h.sentBy, h.sent, fun q hq => ?_,
    List.nodup_cons.mpr ⟨fun hmem => ?_, h.replied⟩, h.entries, h.returnedBy, h.returned⟩
  · rcases List.mem_cons.mp hq with rfl | hq
    · exact ⟨hid, hsent⟩
    · exact h.repliedTo q hq
  · obtain ⟨q, hq, hid⟩ := List.mem_map.mp hmem
    exact hnew q hq hid

theorem Ledger.insert (h : Ledger W H) {x : Inserted} (hnew : ∀ y ∈ H.inserted, y.pend ≠ x.pend) :
    Ledger W { H with inserted := x :: H.inserted } := by
  refine ⟨h.ids, h.issued, h.sentBy, h.sent, h.repliedTo, h.replied, ?_, h.returnedBy, h.returned⟩
  intro y hy z hz hpend
  rcases List.mem_cons.mp hy with hyx | hy'
  · rcases List.mem_cons.mp hz with hzx | hz'
    · rw [hyx, hzx]
    · exact absurd (hyx ▸ hpend.symm) (hnew z hz')
  · rcases List.mem_cons.mp hz with hzx | hz'
    · exact absurd (hzx ▸ hpend) (hnew y hy')
    · exact h.entries y hy' z hz' hpend

theorem Ledger.return (h : Ledger W H) {r : Returned}
    (hout : Outstanding H r.call.conn r.call.reqId) :
    Ledger W { H with returned := r :: H.returned } := by
  refine ⟨h.ids, h.issued, h.sentBy, h.sent, h.repliedTo, h.replied, h.entries, fun q hq => ?_,
    List.nodup_cons.mpr ⟨fun hmem => ?_, h.returned⟩⟩
  · rcases List.mem_cons.mp hq with rfl | hq
    · exact hout.1
    · exact h.returnedBy q hq
  · obtain ⟨q, hq, hid⟩ := List.mem_map.mp hmem
    exact hout.2 q hq hid

end Ledger

section Wires

variable {W : ℕ → Prop} {H : History} {inbound : ℕ → List Bytes} {outbound : ℕ → List Message}

theorem Wires.consume (h : Wires W H inbound outbound) {c : ℕ} {frame : Bytes}
    {rest : List Bytes} (hin : inbound c = frame :: rest) :
    Wires W H (Function.update inbound c rest) outbound := by
  refine ⟨h.commands, h.distinct, fun d frame' hmem => h.frames d frame' ?_⟩
  by_cases hd : d = c
  · subst hd
    rw [Function.update_self] at hmem
    rw [hin]
    exact List.mem_cons_of_mem _ hmem
  · rwa [Function.update_of_ne hd] at hmem

theorem Wires.arrive (h : Wires W H inbound outbound) {c : ℕ} {frame : Bytes}
    (hframe : ∀ msg, decodeMessage frame = .ok msg → (msg.type = .wkRegister → W c) ∧
      (W c → msg.type = .wkRegister ∨ msg.reqId = 0 ∨ ∃ p ∈ H.replied, p.reply = msg)) :
    Wires W H (Function.update inbound c (inbound c ++ [frame])) outbound := by
  refine ⟨h.commands, h.distinct, fun d frame' hmem => ?_⟩
  by_cases hd : d = c
  · subst hd
    rw [Function.update_self] at hmem
    rcases List.mem_append.mp hmem with hmem | hmem
    · exact h.frames d frame' hmem
    · rw [List.mem_singleton.mp hmem]
      exact hframe
  · rw [Function.update_of_ne hd] at hmem
    exact h.frames d frame' hmem

theorem Wires.send (h : Wires W H inbound outbound) (hled : Ledger W H) {x : Sent}
    (hunsent : Unsent H x.cmd.reqId) :
    Wires W { H with sent := x :: H.sent } inbound
      (Function.update outbound x.conn (outbound x.conn ++ [x.cmd])) := by
  have hcommands (d : ℕ) (cmd : Message) (hmem : cmd ∈ outbound d) :
      (∃ w, ⟨d, w, cmd⟩ ∈ x :: H.sent) ∧ ∀ p ∈ H.replied, p.cmd.reqId ≠ cmd.reqId := by
    obtain ⟨⟨w, hsent⟩, hopen⟩ := h.commands d cmd hmem
    exact ⟨⟨w, List.mem_cons_of_mem _ hsent⟩, hopen⟩
  refine ⟨fun d cmd hmem => ?_, fun d => ?_, h.frames⟩
  · by_cases hd : d = x.conn
    · subst hd
      rw [Function.update_self] at hmem
      rcases List.mem_append.mp hmem with hmem | hmem
      · exact hcommands _ cmd hmem
      · rw [List.mem_singleton.mp hmem]
        refine ⟨⟨x.workerId, List.mem_cons_self ..⟩, fun p hp => ?_⟩
        obtain ⟨_, w, hsent⟩ := hled.repliedTo p hp
        exact hunsent _ hsent
    · rw [Function.update_of_ne hd] at hmem
      exact hcommands d cmd hmem
  · by_cases hd : d = x.conn
    · subst hd
      rw [Function.update_self, List.map_append, List.map_singleton, ← List.concat_eq_append]
      refine (h.distinct _).concat fun hmem => ?_
      obtain ⟨cmd, hcmd, hid⟩ := List.mem_map.mp hmem
      obtain ⟨⟨w, hsent⟩, _⟩ := h.commands _ cmd hcmd
      exact hunsent _ hsent hid
    · rw [Function.update_of_ne hd]
      exact h.distinct d

theorem Wires.reply (h : Wires W H inbound outbound) (hled : Ledger W H) {c i : ℕ} {frame : Bytes}
    {cmd msg : Message} (hcmd : (outbound c)[i]? = some cmd)
    (hmsg : decodeMessage frame = .ok msg) :
    Wires W { H with replied := ⟨c, cmd, msg⟩ :: H.replied }
      (Function.update inbound c (inbound c ++ [frame]))
      (Function.update outbound c ((outbound c).eraseIdx i)) := by
  obtain ⟨hi, hget⟩ := List.getElem?_eq_some_iff.mp hcmd
  obtain ⟨⟨w, hsent⟩, hopen⟩ := h.commands c cmd (hget ▸ List.getElem_mem hi)
  have hperm : ((outbound c).map (·.reqId)).Perm
      (cmd.reqId :: ((outbound c).eraseIdx i).map (·.reqId)) := by
    have := (List.getElem_cons_eraseIdx_perm hi).symm.map (·.reqId)
    rwa [hget] at this
  obtain ⟨hrest, hnodup⟩ := List.nodup_cons.mp (hperm.nodup_iff.mp (h.distinct c))
  have hframes : Wires W { H with replied := ⟨c, cmd, msg⟩ :: H.replied } inbound
      (Function.update outbound c ((outbound c).eraseIdx i)) := by
    refine ⟨fun d cmd' hmem => ?_, fun d => ?_, fun d frame' hmem msg' hmsg' => ?_⟩
    · have hmem' : cmd' ∈ outbound d ∧ cmd'.reqId ≠ cmd.reqId := by
        by_cases hd : d = c
        · subst hd
          rw [Function.update_self] at hmem
          refine ⟨List.mem_of_mem_eraseIdx hmem, fun hid => hrest ?_⟩
          exact hid ▸ List.mem_map_of_mem (f := (·.reqId)) hmem
        · rw [Function.update_of_ne hd] at hmem
          refine ⟨hmem, fun hid => hd ?_⟩
          -- ids are sent once, so over one connection
          obtain ⟨⟨w', hsent'⟩, _⟩ := h.commands d cmd' hmem
          exact congrArg Sent.conn (List.inj_on_of_nodup_map hled.sent hsent' hsent hid)
      obtain ⟨hsent', hopen'⟩ := h.commands d cmd' hmem'.1
      refine ⟨hsent', fun p hp => ?_⟩
      rcases List.mem_cons.mp hp with rfl | hp
      · exact Ne.symm hmem'.2
      · exact hopen' p hp
    · by_cases hd : d = c
      · subst hd
        rwa [Function.update_self]
      · rw [Function.update_of_ne hd]
        exact h.distinct d
    · obtain ⟨hreg, hworker⟩ := h.frames d frame' hmem msg' hmsg'
      refine ⟨hreg, fun hw => ?_⟩
      rcases hworker hw with htype | hzero | ⟨p, hp, hreply⟩
      · exact .inl htype
      · exact .inr (.inl hzero)
      · exact .inr (.inr ⟨p, List.mem_cons_of_mem _ hp, hreply⟩)
  refine hframes.arrive fun msg' hmsg' => ?_
  obtain rfl : msg = msg' := Except.ok.inj (hmsg.symm.trans hmsg')
  exact ⟨fun _ => (hled.sentBy _ hsent).1, fun _ => .inr (.inr ⟨_, List.mem_cons_self .., rfl⟩)⟩

end Wires

section Tables

variable {W : ℕ → Prop} {slots : ℕ → Option WorkerSlot} {H : History} {workers : StrMap ℕ}
  {pending : Std.ExtTreeMap UInt64 ℕ compare} {pends : ℕ → Option Pending} {nextRef : ℕ}

theorem Tables.newSlot (h : Tables W slots H workers pending pends nextRef)
    (hfresh : slots nextRef = none) (sl : WorkerSlot) :
    Tables W (Function.update slots nextRef (some sl)) H workers pending pends (nextRef + 1) := by
  have h' := h.grows (.refl H 0) rfl (.newSlot hfresh sl)
  refine ⟨h'.workers, h'.pending, fun x hx => ?_, h'.pends⟩
  have := h'.fresh x hx
  omega

theorem Tables.enterWorker (h : Tables W slots H workers pending pends nextRef) {text : Bytes}
    {slot : ℕ} (hnames : Names W slots H text slot) :
    Tables W slots H (workers.insert text slot) pending pends nextRef := by
  refine ⟨fun k ref hk => ?_, h.pending, h.fresh, h.pends⟩
  rcases Table.of_insert hk with ⟨rfl, rfl⟩ | hk
  · exact hnames
  · exact h.workers k ref hk

theorem Tables.erase (h : Tables W slots H workers pending pends nextRef) (n : UInt64) :
    Tables W slots H workers (pending.erase n) pends nextRef :=
  ⟨h.workers, fun k pend hk => h.pending k pend (Table.of_erase hk), h.fresh, h.pends⟩

theorem Tables.insert (h : Tables W slots H workers pending pends nextRef) (n : UInt64) :
    Tables W slots { H with inserted := ⟨n, nextRef⟩ :: H.inserted } workers
      (pending.insert n nextRef) (Function.update pends nextRef (some {})) (nextRef + 1) := by
  refine ⟨h.workers, fun k pend hk => ?_, fun x hx => ?_, fun x hx pd hpd => ?_⟩
  · rcases Table.of_insert hk with ⟨rfl, rfl⟩ | hk
    · exact List.mem_cons_self ..
    · exact List.mem_cons_of_mem _ (h.pending k pend hk)
  · rcases List.mem_cons.mp hx with rfl | hx
    · exact Nat.lt_succ_self _
    · have := h.fresh x hx
      omega
  · rcases List.mem_cons.mp hx with rfl | hx
    · rw [Function.update_self] at hpd
      cases hpd
      exact ⟨fun _ => rfl, nofun⟩
    · rw [Function.update_of_ne (Nat.ne_of_lt (h.fresh x hx))] at hpd
      exact h.pends x hx pd hpd

/-- A reply is written to an entry that was inserted under its id, done or not. -/
theorem Tables.settle (h : Tables W slots H workers pending pends nextRef) (hled : Ledger W H)
    {msg : Message} {pend : ℕ} (hreply : ∃ p ∈ H.replied, p.reply = msg)
    (hentry : ⟨msg.reqId, pend⟩ ∈ H.inserted) :
    Tables W slots H workers pending
      (Function.update pends pend (some { done := true, result := msg })) nextRef := by
  refine ⟨h.workers, h.pending, h.fresh, fun x hx pd hpd => ?_⟩
  rcases Table.of_update hpd with ⟨hp, rfl⟩ | ⟨-, hpd⟩
  · refine ⟨nofun, fun _ => .inr ?_⟩
    obtain ⟨p, hp', hmsg⟩ := hreply
    exact ⟨p, hp', hmsg, (hled.entries x hx _ hentry hp).symm⟩
  · exact h.pends x hx pd hpd

theorem Tables.abortAll (h : Tables W slots H workers pending pends nextRef) (refs : List ℕ) :
    Tables W slots H workers pending (abortAll refs pends) nextRef := by
  refine ⟨h.workers, h.pending, h.fresh, fun x hx pd hpd => ?_⟩
  rw [abortAll_apply] at hpd
  by_cases href : x.pend ∈ refs
  · rw [if_pos href] at hpd
    obtain ⟨pd₀, hpd₀, rfl⟩ := Option.map_eq_some_iff.mp hpd
    obtain ⟨hopen, hdone⟩ := h.pends x hx pd₀ hpd₀
    unfold Pending.abort
    by_cases hd : pd₀.done = true
    · rw [if_pos hd]
      exact ⟨hopen, hdone⟩
    · rw [if_neg hd]
      -- an entry that is not done still has the result it was made with
      rw [hopen (by simpa using hd)]
      exact ⟨nofun, fun _ => .inl (.inr (.inr rfl))⟩
  · rw [if_neg href] at hpd
    exact h.pends x hx pd hpd

end Tables

end Coordinator

end AdapterFabric
