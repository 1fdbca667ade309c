import AdapterFabric.Coordinator.InFlight
import AdapterFabric.Coordinator.Provenance
import AdapterFabric.Coordinator.Responsive

/-!
# AdapterFabric.Coordinator.Waiting

What a call waits for: where its command, or the reply to it, is.

* `Accounted.step`: no step of a handler loses either.
* `waits_accounted`: so a call that waits has its command or its reply under way, or the worker or
  the connection is gone.
-/

namespace AdapterFabric

namespace Coordinator

open Interleave

/-- The handler has left its loop. -/
def Handler.hasLeft : Handler → Bool
  | closing _ => true
  | sweeping _ => true
  | downing _ => true
  | finished _ => true
  | returned _ => true
  | _ => false

/-- The handler has read a reply that it has not passed on, or has left its loop. -/
def Handler.isBusy : Handler → Bool
  | finding _ _ => true
  | settling _ _ _ => true
  | h => h.hasLeft

namespace Server

/-- What a call that sent `cmd` over `k` and waits for `pend` waits for. -/
inductive Due (s : Server) (cmd : Message) (pend k : ℕ) : Prop where
  | command (h : cmd ∈ s.outbound k)
  | reply {frame msg} (h : frame ∈ s.inbound k) (hmsg : decodeMessage frame = .ok msg)
    (htype : msg.type ≠ .wkRegister) (hid : msg.reqId = cmd.reqId)
  | finding {msg slot} (hh : s.handlers k = some (.finding msg slot)) (hid : msg.reqId = cmd.reqId)
  | settling {msg slot} (hh : s.handlers k = some (.settling msg slot pend))
    (hid : msg.reqId = cmd.reqId)
  | left {h} (hh : s.handlers k = some h) (hleft : h.hasLeft = true)

/-- Every call that waits for an open entry waits for something that is due. -/
def Accounted (s : Server) : Prop :=
  s.terminated = false → ∀ c call slot pend sl pd,
    s.handlers c = some (.calling call (.waiting slot pend)) → s.slots slot = some sl →
    s.pends pend = some pd → pd.done = false → s.Due call.command pend sl.sock

/-- The replies of the workers carry the ids of their commands, and are no registrations. -/
def Faithful (s : Server) : Action → Prop
  | .reply c i frame => ∀ cmd msg, (s.outbound c)[i]? = some cmd → decodeMessage frame = .ok msg →
    msg.reqId = cmd.reqId ∧ msg.type ≠ .wkRegister
  | _ => True

section Due

variable {s t : Server} {cmd : Message} {pend k c : ℕ}

theorem Due.keep (h : s.Due cmd pend k) (hout : s.outbound k ⊆ t.outbound k)
    (hin : s.inbound k ⊆ t.inbound k) (hh : t.handlers k = s.handlers k) :
    t.Due cmd pend k := by
  cases h with
  | command h => exact .command (hout h)
  | reply h hmsg htype hid => exact .reply (hin h) hmsg htype hid
  | finding h hid => exact .finding (hh.trans h) hid
  | settling h hid => exact .settling (hh.trans h) hid
  | left h hleft => exact .left (hh.trans h) hleft

theorem Due.pass (h : s.Due cmd pend k) {hd : Handler} (hhd : s.handlers k = some hd)
    (hbusy : hd.isBusy = false) (hout : s.outbound k ⊆ t.outbound k)
    (hin : s.inbound k ⊆ t.inbound k) : t.Due cmd pend k := by
  have hno {hd' : Handler} (hh : s.handlers k = some hd') (hbusy' : hd'.isBusy = true) : False := by
    rw [hhd] at hh
    cases hh
    rw [hbusy] at hbusy'
    cases hbusy'
  cases h with
  | command h => exact .command (hout h)
  | reply h hmsg htype hid => exact .reply (hin h) hmsg htype hid
  | finding h hid => exact (hno h rfl).elim
  | settling h hid => exact (hno h rfl).elim
  | @left hd' h hleft =>
    refine (hno h ?_).elim
    cases hd' <;> first | rfl | cases hleft

end Due

section Step

variable {s t : Server} {c : ℕ} {hd hd' : Handler}

theorem Accounted.of (h : s.Accounted) (halive : s.terminated = false) (hposted : s.Posted)
    (hcall : ∀ c call slot pend, t.handlers c = some (.calling call (.waiting slot pend)) →
      s.handlers c = some (.calling call (.waiting slot pend)))
    (hslot : ∀ c call slot pend sl', s.handlers c = some (.calling call (.waiting slot pend)) →
      t.slots slot = some sl' → ∃ sl, s.slots slot = some sl ∧ sl.sock = sl'.sock)
    (hpend : ∀ c call slot pend pd', s.handlers c = some (.calling call (.waiting slot pend)) →
      t.pends pend = some pd' → pd'.done = false → ∃ pd, s.pends pend = some pd ∧ pd.done = false)
    (hdue : ∀ c call slot pend k w, s.handlers c = some (.calling call (.waiting slot pend)) →
      s.handlers k = some w → w.isWorker = true →
      (∃ pd', t.pends pend = some pd' ∧ pd'.done = false) → s.Due call.command pend k →
      t.Due call.command pend k) : t.Accounted := by
  intro _ c call slot pend sl' pd' hh' hsl' hpd' hopen
  have hh := hcall c call slot pend hh'
  obtain ⟨sl, hsl, hsock⟩ := hslot c call slot pend sl' hh hsl'
  obtain ⟨pd, hpd, hold⟩ := hpend c call slot pend pd' hh hpd' hopen
  obtain ⟨w, hw, hworker⟩ := hposted slot sl hsl
  rw [← hsock]
  exact hdue c call slot pend sl.sock w hh hw hworker ⟨pd', hpd', hopen⟩
    (h halive c call slot pend sl pd hh hsl hpd hold)

theorem waiting_of_goto (hwait : hd'.isWaiting = false) {d : ℕ} {call : Call} {slot pend : ℕ}
    (hh : (s.goto c hd').handlers d = some (.calling call (.waiting slot pend))) :
    s.handlers d = some (.calling call (.waiting slot pend)) := by
  rcases Table.of_update hh with ⟨-, rfl⟩ | ⟨-, hh⟩
  · cases hwait
  · exact hh

/-- A step of the handler of `c`: what is due elsewhere stays due. -/
theorem Accounted.own (h : s.Accounted) (halive : s.terminated = false) (hposted : s.Posted)
    (hhandlers : t.handlers = s.handlers) (hwait : hd'.isWaiting = false)
    (hout : ∀ k, s.outbound k ⊆ t.outbound k)
    (hin : ∀ k, k ≠ c → s.inbound k ⊆ t.inbound k)
    (hslot : ∀ d call slot pend sl', s.handlers d = some (.calling call (.waiting slot pend)) →
      t.slots slot = some sl' → ∃ sl, s.slots slot = some sl ∧ sl.sock = sl'.sock)
    (hpend : ∀ d call slot pend pd', s.handlers d = some (.calling call (.waiting slot pend)) →
      t.pends pend = some pd' → pd'.done = false → ∃ pd, s.pends pend = some pd ∧ pd.done = false)
    (hself : ∀ d call slot pend w, s.handlers d = some (.calling call (.waiting slot pend)) →
      s.handlers c = some w → w.isWorker = true →
      (∃ pd', t.pends pend = some pd' ∧ pd'.done = false) → s.Due call.command pend c →
      (t.goto c hd').Due call.command pend c) : (t.goto c hd').Accounted := by
  refine h.of halive hposted ?_ hslot hpend ?_
  · intro d call slot pend hh
    rw [← hhandlers]
    exact waiting_of_goto hwait hh
  · intro d call slot pend k w hh hw hworker hopen hdue
    by_cases hk : k = c
    · rw [hk] at hw hdue ⊢
      exact hself d call slot pend w hh hw hworker hopen hdue
    · refine hdue.keep (hout k) (hin k hk) ?_
      rw [goto_handlers _ hk, hhandlers]

theorem Accounted.goto (h : s.Accounted) (halive : s.terminated = false) (hposted : s.Posted)
    (hhandlers : t.handlers = s.handlers) (hslots : t.slots = s.slots)
    (hpends : t.pends = s.pends) (hwait : hd'.isWaiting = false)
    (hout : ∀ k, s.outbound k ⊆ t.outbound k)
    (hin : ∀ k, k ≠ c → s.inbound k ⊆ t.inbound k)
    (hself : ∀ d call slot pend w, s.handlers d = some (.calling call (.waiting slot pend)) →
      s.handlers c = some w → w.isWorker = true → s.Due call.command pend c →
      (t.goto c hd').Due call.command pend c) : (t.goto c hd').Accounted := by
  refine h.own halive hposted hhandlers hwait hout hin ?_ ?_ ?_
  · intro d call slot pend sl' _ hsl
    exact ⟨sl', hslots ▸ hsl, rfl⟩
  · intro d call slot pend pd' _ hpd hopen
    exact ⟨pd', hpends ▸ hpd, hopen⟩
  · intro d call slot pend w hh hw hworker _ hdue
    exact hself d call slot pend w hh hw hworker hdue

theorem Accounted.client (h : s.Accounted) (halive : s.terminated = false) (hposted : s.Posted)
    (hh : s.handlers c = some hd) (hclient : hd.isWorker = false)
    (hhandlers : t.handlers = s.handlers) (hslots : t.slots = s.slots)
    (hpends : t.pends = s.pends) (hwait : hd'.isWaiting = false)
    (hout : ∀ k, s.outbound k ⊆ t.outbound k)
    (hin : ∀ k, k ≠ c → s.inbound k ⊆ t.inbound k) : (t.goto c hd').Accounted := by
  refine h.goto halive hposted hhandlers hslots hpends hwait hout hin ?_
  intro d call slot pend w _ hw hworker _
  cases hh.symm.trans hw
  rw [hclient] at hworker
  cases hworker

theorem Accounted.pass (h : s.Accounted) (halive : s.terminated = false) (hposted : s.Posted)
    (hh : s.handlers c = some hd) (hbusy : hd.isBusy = false)
    (hhandlers : t.handlers = s.handlers) (hslots : t.slots = s.slots)
    (hpends : t.pends = s.pends) (hwait : hd'.isWaiting = false)
    (hout : ∀ k, s.outbound k ⊆ t.outbound k) (hin : ∀ k, s.inbound k ⊆ t.inbound k) :
    (t.goto c hd').Accounted := by
  refine h.goto halive hposted hhandlers hslots hpends hwait hout (fun k _ => hin k) ?_
  intro d call slot pend w _ hw _ hdue
  exact hdue.pass hh hbusy (hout c) (hin c)

theorem Accounted.leave (h : s.Accounted) (halive : s.terminated = false) (hposted : s.Posted)
    (hleft : hd'.hasLeft = true) (hhandlers : t.handlers = s.handlers)
    (hslots : t.slots = s.slots) (hpends : t.pends = s.pends)
    (hout : ∀ k, s.outbound k ⊆ t.outbound k)
    (hin : ∀ k, k ≠ c → s.inbound k ⊆ t.inbound k) : (t.goto c hd').Accounted := by
  have hwait : hd'.isWaiting = false := by
    cases hd' <;> first | rfl | cases hleft
  refine h.goto halive hposted hhandlers hslots hpends hwait hout hin ?_
  intro d call slot pend w _ _ _ _
  exact .left (goto_self _ _ _) hleft

theorem Due.consume {cmd : Message} {pend : ℕ} {frame : Bytes} {rest : List Bytes}
    (h : s.Due cmd pend c) (hh : s.handlers c = some hd) (hbusy : hd.isBusy = false)
    (hin : s.inbound c = frame :: rest) (hout' : t.outbound c = s.outbound c)
    (hin' : t.inbound c = rest)
    (hread : ∀ msg, decodeMessage frame = .ok msg → msg.type ≠ .wkRegister →
      msg.reqId = cmd.reqId → t.Due cmd pend c) : t.Due cmd pend c := by
  have hno {hd' : Handler} (hh' : s.handlers c = some hd') (hbusy' : hd'.isBusy = true) :
      False := by
    rw [hh] at hh'
    cases hh'
    rw [hbusy] at hbusy'
    cases hbusy'
  cases h with
  | command h => exact .command (hout' ▸ h)
  | @reply frame' msg h hmsg htype hid =>
    rw [hin] at h
    rcases List.mem_cons.mp h with rfl | h
    · exact hread msg hmsg htype hid
    · exact .reply (hin' ▸ h) hmsg htype hid
  | finding h hid => exact (hno h rfl).elim
  | settling h hid => exact (hno h rfl).elim
  | @left hd' h hleft =>
    refine (hno h ?_).elim
    cases hd' <;> first | rfl | cases hleft

theorem Due.answered {cmd cmd' msg : Message} {pend k i : ℕ} {frame : Bytes}
    (h : s.Due cmd pend k) (hcmd : (s.outbound c)[i]? = some cmd')
    (hmsg : decodeMessage frame = .ok msg) (hid : msg.reqId = cmd'.reqId)
    (htype : msg.type ≠ .wkRegister)
    (hout' : t.outbound = Function.update s.outbound c ((s.outbound c).eraseIdx i))
    (hin' : t.inbound = Function.update s.inbound c (s.inbound c ++ [frame]))
    (hh' : t.handlers = s.handlers) : t.Due cmd pend k := by
  by_cases hk : k = c
  · subst hk
    have hin : s.inbound k ⊆ t.inbound k := by
      rw [hin', Function.update_self]
      exact List.subset_append_left _ _
    cases h with
    | command h =>
      obtain ⟨j, hj, hget⟩ := List.mem_iff_getElem.mp h
      by_cases hij : j = i
      · subst hij
        obtain rfl : cmd = cmd' := by
          rw [List.getElem?_eq_getElem hj, hget] at hcmd
          exact Option.some.inj hcmd
        refine .reply ?_ hmsg htype hid
        rw [hin', Function.update_self]
        exact List.mem_append_right _ (List.mem_singleton_self frame)
      · refine .command ?_
        rw [hout', Function.update_self, ← hget]
        exact List.mem_eraseIdx_iff_getElem.mpr ⟨j, hj, hij, rfl⟩
    | reply h hmsg htype hid => exact .reply (hin h) hmsg htype hid
    | finding h hid => exact .finding (hh' ▸ h) hid
    | settling h hid => exact .settling (hh' ▸ h) hid
    | left h hleft => exact .left (hh' ▸ h) hleft
  · refine h.keep ?_ ?_ (by rw [hh'])
    · rw [hout', Function.update_of_ne hk]
      exact List.Subset.refl _
    · rw [hin', Function.update_of_ne hk]
      exact List.Subset.refl _

theorem Tidied.entry_of_waiting (h : s.Tidied) {call : Call} {slot pend : ℕ}
    (hh : s.handlers c = some (.calling call (.waiting slot pend))) :
    s.pending[call.reqId]? = some pend := by
  obtain ⟨pend', hpend, hall⟩ := h.entered c call _ hh rfl
  rw [hpend, hall pend (List.mem_singleton_self pend)]

/-- A reply is found by the id of the call, and settles its entry. -/
theorem Accounted.find (h : s.Accounted) (halive : s.terminated = false) (hposted : s.Posted)
    (htidy : s.Tidied) {msg : Message} {slot : ℕ} (hh : s.handlers c = some (.finding msg slot))
    (hstep : s.Step (.advance c) t) : t.Accounted := by
  have hact : s.advance c (.finding msg slot) = some t := by
    rw [← act_advance halive hh]
    exact hstep
  dsimp only [advance] at hact
  cases hpending : s.pending[msg.reqId]? with
  | none =>
    rw [hpending] at hact
    cases hact
    refine h.goto halive hposted rfl rfl rfl rfl (fun _ => List.Subset.refl _)
      (fun _ _ => List.Subset.refl _) ?_
    intro d call slot' pend w hcall hw _ hdue
    cases hdue with
    | command h => exact .command h
    | reply h hmsg htype hid => exact .reply h hmsg htype hid
    | finding hh' hid =>
      cases hh.symm.trans hh'
      have hid : msg.reqId = call.reqId := hid
      rw [hid, htidy.entry_of_waiting hcall] at hpending
      cases hpending
    | settling hh' hid => cases hh.symm.trans hh'
    | left hh' hleft =>
      cases hh.symm.trans hh'
      cases hleft
  | some pend' =>
    rw [hpending] at hact
    cases hact
    refine h.goto halive hposted rfl rfl rfl rfl (fun _ => List.Subset.refl _)
      (fun _ _ => List.Subset.refl _) ?_
    intro d call slot' pend w hcall hw _ hdue
    cases hdue with
    | command h => exact .command h
    | reply h hmsg htype hid => exact .reply h hmsg htype hid
    | finding hh' hid =>
      cases hh.symm.trans hh'
      have hid : msg.reqId = call.reqId := hid
      rw [hid, htidy.entry_of_waiting hcall] at hpending
      cases hpending
      exact .settling (goto_self _ _ _) hid
    | settling hh' hid => cases hh.symm.trans hh'
    | left hh' hleft =>
      cases hh.symm.trans hh'
      cases hleft

theorem Accounted.register (h : s.Accounted) (halive : s.terminated = false) (hposted : s.Posted)
    (hres : s.Resolved) {slot : Option ℕ} {frame : Bytes} {rest : List Bytes} {msg : Message}
    {new : WorkerSlot} (hh : s.handlers c = some (.reading slot))
    (hframe : s.inbound c = frame :: rest) (hmsg : decodeMessage frame = .ok msg)
    (htype : msg.type = .wkRegister) (hhandlers : t.handlers = s.handlers)
    (hslots : t.slots = Function.update s.slots s.nextRef (some new)) (hpends : t.pends = s.pends)
    (hwait : hd'.isWaiting = false) (hout : t.outbound = s.outbound)
    (hin : t.inbound = Function.update s.inbound c rest) : (t.goto c hd').Accounted := by
  refine h.own halive hposted hhandlers hwait ?_ ?_ ?_ ?_ ?_
  · intro k
    rw [hout]
    exact List.Subset.refl _
  · intro k hk
    rw [hin, Function.update_of_ne hk]
    exact List.Subset.refl _
  · intro d call slot' pend sl' hcall hsl
    obtain ⟨sl, hold⟩ := Option.isSome_iff_exists.mp
      (hres.slot hcall (List.mem_singleton_self slot'))
    rw [hslots] at hsl
    rcases Table.of_update hsl with ⟨hnew, -⟩ | ⟨-, hsl⟩
    · rw [hnew, hres.fresh_slot] at hold
      cases hold
    · exact ⟨sl', hsl, rfl⟩
  · intro d call slot' pend pd' _ hpd hopen
    exact ⟨pd', hpends ▸ hpd, hopen⟩
  · intro d call slot' pend w hcall hw _ _ hdue
    refine hdue.consume hh (by cases slot <;> rfl) hframe (congrFun hout c) ?_ ?_
    · show t.inbound c = rest
      rw [hin, Function.update_self]
    · intro msg' hmsg' htype'
      cases hmsg.symm.trans hmsg'
      exact absurd htype htype'

theorem Accounted.insert (h : s.Accounted) (halive : s.terminated = false) (hposted : s.Posted)
    (hres : s.Resolved) {call : Call} {slot : ℕ}
    (hh : s.handlers c = some (.calling call (.inserting slot)))
    (hhandlers : t.handlers = s.handlers) (hslots : t.slots = s.slots)
    (hpends : t.pends = Function.update s.pends s.nextRef (some {}))
    (hwait : hd'.isWaiting = false) (hout : t.outbound = s.outbound)
    (hin : t.inbound = s.inbound) : (t.goto c hd').Accounted := by
  refine h.own halive hposted hhandlers hwait ?_ ?_ ?_ ?_ ?_
  · intro k
    rw [hout]
    exact List.Subset.refl _
  · intro k _
    rw [hin]
    exact List.Subset.refl _
  · intro d call slot' pend sl' _ hsl
    exact ⟨sl', hslots ▸ hsl, rfl⟩
  · intro d call slot' pend pd' hcall hpd hopen
    have hlt := hres.pends_lt pend (hres.pend hcall (List.mem_singleton_self pend))
    rw [hpends, Function.update_of_ne (by omega)] at hpd
    exact ⟨pd', hpd, hopen⟩
  · intro d call' slot' pend w _ hw hworker
    cases hh.symm.trans hw
    cases hworker

theorem Accounted.settle (h : s.Accounted) (halive : s.terminated = false) (hposted : s.Posted)
    {msg : Message} {slot ref : ℕ} (hh : s.handlers c = some (.settling msg slot ref))
    (hhandlers : t.handlers = s.handlers) (hslots : t.slots = s.slots)
    (hpends : t.pends = Function.update s.pends ref (some { done := true, result := msg }))
    (hwait : hd'.isWaiting = false) (hout : t.outbound = s.outbound)
    (hin : t.inbound = s.inbound) : (t.goto c hd').Accounted := by
  refine h.own halive hposted hhandlers hwait ?_ ?_ ?_ ?_ ?_
  · intro k
    rw [hout]
    exact List.Subset.refl _
  · intro k _
    rw [hin]
    exact List.Subset.refl _
  · intro d call slot' pend sl' _ hsl
    exact ⟨sl', hslots ▸ hsl, rfl⟩
  · intro d call slot' pend pd' _ hpd hopen
    rw [hpends] at hpd
    rcases Table.of_update hpd with ⟨-, rfl⟩ | ⟨-, hpd⟩
    · cases hopen
    · exact ⟨pd', hpd, hopen⟩
  · intro d call slot' pend w _ hw _ hopen hdue
    cases hdue with
    | command h => exact .command (hout ▸ h)
    | reply h hmsg htype hid => exact .reply (hin ▸ h) hmsg htype hid
    | finding hh' hid => cases hh.symm.trans hh'
    | settling hh' hid =>
      cases hh.symm.trans hh'
      obtain ⟨pd', hpd, hopen⟩ := hopen
      rw [hpends, Function.update_self] at hpd
      cases hpd
      cases hopen
    | left hh' hleft =>
      cases hh.symm.trans hh'
      cases hleft

theorem Accounted.sent (h : s.Accounted) (halive : s.terminated = false) (hposted : s.Posted)
    {call : Call} {slot pend : ℕ} {sl : WorkerSlot} {cmds : List Message}
    (hh : s.handlers c = some (.calling call (.sending slot pend)))
    (hsl : s.slots slot = some sl) (hhandlers : t.handlers = s.handlers)
    (hslots : t.slots = s.slots) (hpends : t.pends = s.pends)
    (hout : t.outbound = Function.update s.outbound sl.sock (s.outbound sl.sock ++ cmds))
    (hin : t.inbound = s.inbound) (hcmds : call.command ∈ cmds) :
    (t.goto c (.calling call (.waiting slot pend))).Accounted := by
  intro _ d call' slot' pend' sl' pd' hh' hsl' hpd' hopen
  replace hh' : Function.update t.handlers c _ d = _ := hh'
  replace hsl' : s.slots slot' = some sl' := hslots ▸ hsl'
  rw [hhandlers] at hh'
  rcases Table.of_update hh' with ⟨-, hcall⟩ | ⟨-, hh'⟩
  · cases hcall
    cases hsl.symm.trans hsl'
    refine .command ?_
    show call.command ∈ t.outbound sl.sock
    rw [hout, Function.update_self]
    exact List.mem_append_right _ hcmds
  · obtain ⟨w, hw, hworker⟩ := hposted slot' sl' hsl'
    have hk : sl'.sock ≠ c := by
      intro hk
      rw [hk, hh] at hw
      cases hw
      cases hworker
    refine (h halive d call' slot' pend' sl' pd' hh' hsl' (hpends ▸ hpd') hopen).keep ?_ ?_ ?_
    · show s.outbound sl'.sock ⊆ t.outbound sl'.sock
      rw [hout]
      by_cases hsock : sl'.sock = sl.sock
      · rw [hsock, Function.update_self]
        exact List.subset_append_left _ _
      · rw [Function.update_of_ne hsock]
        exact List.Subset.refl _
    · show s.inbound sl'.sock ⊆ t.inbound sl'.sock
      rw [hin]
      exact List.Subset.refl _
    · rw [goto_handlers _ hk, hhandlers]

theorem Accounted.step {a : Action} (hstep : s.Step a t) (hfaithful : s.Faithful a)
    (hres : s.Resolved) (htidy : s.Tidied) (hposted : s.Posted)
    (hids : ∀ c call phase, s.handlers c = some (.calling call phase) → call.reqId ≠ 0)
    (h : s.Accounted) : t.Accounted := by
  have halive := hstep.alive
  have hout : ∀ k, s.outbound k ⊆ s.outbound k := fun _ => List.Subset.refl _
  have hin : ∀ k, s.inbound k ⊆ s.inbound k := fun _ => List.Subset.refl _
  have hrest {c : ℕ} {rest : List Bytes} :
      ∀ k, k ≠ c → s.inbound k ⊆ Function.update s.inbound c rest k := by
    intro k hk
    rw [Function.update_of_ne hk]
    exact List.Subset.refl _
  cases act_move hstep with
  | accept hnew =>
    refine h.goto (t := s) halive hposted rfl rfl rfl rfl hout (fun k _ => hin k) ?_
    intro d call slot pend w _ hw
    cases hnew.symm.trans hw
  | @peer c frame hd hh =>
    refine h.of halive hposted (fun _ _ _ _ hh => hh) (fun _ _ _ _ sl' _ hsl => ⟨sl', hsl, rfl⟩)
      (fun _ _ _ _ pd' _ hpd hopen => ⟨pd', hpd, hopen⟩) ?_
    intro d call slot pend k w _ _ _ _ hdue
    refine hdue.keep (hout k) ?_ rfl
    show s.inbound k ⊆ Function.update s.inbound c (s.inbound c ++ [frame]) k
    by_cases hk : k = c
    · subst hk
      rw [Function.update_self]
      exact List.subset_append_left _ _
    · exact hrest k hk
  | @reply c i frame cmd msg hcmd hmsg =>
    obtain ⟨hid, htype⟩ := hfaithful cmd msg hcmd hmsg
    exact h.of halive hposted (fun _ _ _ _ hh => hh) (fun _ _ _ _ sl' _ hsl => ⟨sl', hsl, rfl⟩)
      (fun _ _ _ _ pd' _ hpd hopen => ⟨pd', hpd, hopen⟩)
      fun d call slot pend k w _ _ _ _ hdue => hdue.answered hcmd hmsg hid htype rfl rfl rfl
  | hangup hh => exact h.leave (t := s) halive hposted rfl rfl rfl rfl hout fun k _ => hin k
  | hangupWorker hh => exact h.leave (t := s) halive hposted rfl rfl rfl rfl hout fun k _ => hin k
  | undecodable hh hframe => exact h.leave halive hposted rfl rfl rfl rfl hout hrest
  | registerThrew hh hframe => nofun
  | enterThrew hh => nofun
  | register hh hframe hmsg htype =>
    exact h.register halive hposted hres hh hframe hmsg htype rfl rfl rfl rfl rfl rfl
  | @readReply c slot frame rest msg hh hframe hmsg =>
    refine h.goto halive hposted rfl rfl rfl rfl hout hrest ?_
    intro d call slot' pend w hcall hw _ hdue
    refine hdue.consume hh rfl hframe rfl (Function.update_self ..) ?_
    intro msg' hmsg' _ hid
    cases hmsg.symm.trans hmsg'
    exact .finding (goto_self _ _ _) hid
  | @readIgnored c slot frame rest msg hh hframe hmsg htype hzero =>
    refine h.goto halive hposted rfl rfl rfl rfl hout hrest ?_
    intro d call slot' pend w hcall hw _ hdue
    refine hdue.consume hh rfl hframe rfl (Function.update_self ..) ?_
    intro msg' hmsg' _ hid
    cases hmsg.symm.trans hmsg'
    exact absurd (hid.symm.trans hzero) (hids d call _ hcall)
  | readRequest hh hframe => exact h.client halive hposted hh rfl rfl rfl rfl rfl hout hrest
  | ack hh => exact h.pass (t := s) halive hposted hh rfl rfl rfl rfl rfl hout hin
  | answer hh =>
    exact h.client (t := s) halive hposted hh rfl rfl rfl rfl rfl hout fun k _ => hin k
  | answerLost hh =>
    exact h.client (t := s) halive hposted hh rfl rfl rfl rfl rfl hout fun k _ => hin k
  | sendLost hh =>
    exact h.client (t := s) halive hposted hh rfl rfl rfl rfl rfl hout fun k _ => hin k
  | enterSlot hh => exact h.pass halive hposted hh rfl rfl rfl rfl rfl hout hin
  | enterFabric hh => exact h.pass halive hposted hh rfl rfl rfl rfl rfl hout hin
  | find hh => exact h.find halive hposted htidy hh hstep
  | findNone hh => exact h.find halive hposted htidy hh hstep
  | locked hh => exact h.client halive hposted hh rfl rfl rfl rfl rfl hout fun k _ => hin k
  | nextReq hh => exact h.client halive hposted hh rfl rfl rfl rfl rfl hout fun k _ => hin k
  | shutdown hh => exact h.client halive hposted hh rfl rfl rfl rfl rfl hout fun k _ => hin k
  | call hh => exact h.client halive hposted hh rfl rfl rfl rfl rfl hout fun k _ => hin k
  | checkFailed hh => exact h.client halive hposted hh rfl rfl rfl rfl rfl hout fun k _ => hin k
  | check hh =>
    exact h.client (t := s) halive hposted hh rfl rfl rfl rfl rfl hout fun k _ => hin k
  | unsend hh => exact h.client halive hposted hh rfl rfl rfl rfl rfl hout fun k _ => hin k
  | wake hh =>
    exact h.client (t := s) halive hposted hh rfl rfl rfl rfl rfl hout fun k _ => hin k
  | erase hh => exact h.client halive hposted hh rfl rfl rfl rfl rfl hout fun k _ => hin k
  | down hh => exact h.leave halive hposted rfl rfl rfl rfl hout fun k _ => hin k
  | sendCommand hh hsl =>
    exact h.sent halive hposted hh hsl rfl rfl rfl rfl rfl (List.mem_singleton_self _)
  | insert hh => exact h.insert halive hposted hres hh rfl rfl rfl rfl rfl rfl
  | settle hh => exact h.settle halive hposted hh rfl rfl rfl rfl rfl rfl
  | @close c slot hh =>
    refine h.own halive hposted rfl rfl hout (fun k _ => hin k) ?_
      (fun _ _ _ _ pd' _ hpd hopen => ⟨pd', hpd, hopen⟩)
      fun _ _ _ _ _ _ _ _ _ _ => .left (goto_self _ _ _) rfl
    intro d call slot' pend sl' hcall hsl
    obtain ⟨sl, hold⟩ := Option.isSome_iff_exists.mp
      (hres.slot hcall (List.mem_singleton_self slot'))
    obtain ⟨sl₁, hsl₁, hsock, -⟩ := slots_disconnect slot hold
    cases hsl₁.symm.trans hsl
    exact ⟨sl, hold, hsock.symm⟩
  | @sweep c slot hh =>
    refine h.own halive hposted rfl rfl hout (fun k _ => hin k)
      (fun _ _ _ _ sl' _ hsl => ⟨sl', hsl, rfl⟩) ?_
      fun _ _ _ _ _ _ _ _ _ _ => .left (goto_self _ _ _) rfl
    -- the entry of the call is in the table, and swept
    intro d call slot' pend pd' hcall hpd hopen
    have hentry := htidy.entry_of_waiting hcall
    exact absurd (show Open { s with pends := abortAll (s.pending.toList.map Prod.snd) s.pends }
      call.reqId pend from ⟨hentry, pd', hpd, hopen⟩) (not_open_abortAll (s := s))

end Step

theorem Initial.accounted {s : Server} (h : Initial s) : s.Accounted := by
  obtain ⟨limits, rng, rfl⟩ := h
  intro _ c call slot pend sl pd hh
  cases hh

theorem Tidied.reqId_ne_zero {s : Server} (h : s.Tidied) {c : ℕ} {call : Call} {phase : CallPhase}
    (hh : s.handlers c = some (.calling call phase)) : call.reqId ≠ 0 := by
  intro hzero
  have hpos := (h.issues.bounded _ (h.owns c _ hh).2).1
  rw [hzero] at hpos
  cases hpos

end Server

namespace Deployment

variable {d d' : Deployment} {a : Action}

/-- Every step of a deployment is one of the coordinator with workers that reply faithfully, or
none. -/
theorem Move.faithful (hm : Move d a d') (h : d.Sound) : d'.server = d.server ∨
    ∃ b, Server.Step d.server b d'.server ∧ d.server.Faithful b := by
  cases hm with
  | @coordinator a server hpermits hstep =>
    refine .inr ⟨a, hstep, ?_⟩
    cases a with
    | reply c i frame => cases hpermits
    | _ => trivial
  | launch hstep => exact .inr ⟨_, hstep, trivial⟩
  | register hp hsize hstep => exact .inr ⟨_, hstep, trivial⟩
  | @handle c w x rest delivered hp hx =>
    have hserver : ((d.handle c w x x.message delivered).taken c rest).server =
        if delivered then ((w.handleCommand x.message).2.map (d.reply c x.message)).getD d.server
        else d.server := rfl
    rw [hserver]
    cases delivered with
    | false => exact .inl rfl
    | true =>
      cases hout : (w.handleCommand x.message).2 with
      | none => exact .inl rfl
      | some m =>
        obtain ⟨cmd, rfl⟩ := command_of_reply hout
        have horderly := h.orderly c
        rw [hp] at horderly
        obtain ⟨i, hcmd, hstep⟩ := reply_step h.upright.alive hx horderly.1.open_ hout
        refine .inr ⟨_, hstep, fun cmd' msg hcmd' hmsg => ?_⟩
        rw [decodeMessage_encodeMessage (handleCommand_short hout).1] at hmsg
        cases hmsg
        obtain rfl := Option.some.inj (hcmd.symm.trans hcmd')
        exact ⟨(WorkerService.handleCommand_reply hout).1, (handleCommand_short hout).2⟩
  | _ => exact .inl rfl

/-- What holds of the coordinator in every deployment that runs. -/
structure Tracked (d : Deployment) : Prop where
  sound : d.Sound
  resolved : d.server.Resolved
  posted : d.server.Posted
  tidied : d.server.Tidied
  accounted : d.server.Accounted

theorem Tracked.move (hm : Move d a d') (hissued : d'.server.history.issued.length < 2 ^ 64)
    (h : d.Tracked) : d'.Tracked := by
  have hsound := h.sound.move hm
  rcases hm.faithful h.sound with he | ⟨b, hb, hfaithful⟩
  · exact ⟨hsound, he ▸ h.resolved, he ▸ h.posted, he ▸ h.tidied, he ▸ h.accounted⟩
  · have hmove := Server.act_move hb
    exact ⟨hsound, h.resolved.move hmove, h.posted.move hmove, h.tidied.move hmove hissued,
      h.accounted.step hb hfaithful h.resolved h.tidied h.posted
        fun c call phase hh => h.tidied.reqId_ne_zero hh⟩

theorem Initial.tracked (h : Initial d) : d.Tracked := by
  have hsound := h.sound
  obtain ⟨s, hs, rfl⟩ := h
  exact ⟨hsound, hs.resolved, hs.posted, hs.tidied, hs.accounted⟩

theorem Steps.tracked {d₀ : Deployment} {as : List Action} (h₀ : Initial d₀)
    (h : Run.Steps Step d₀ as d) (hissued : d.server.history.issued.length < 2 ^ 64) :
    d.Tracked := by
  have htracked : d.Sound ∧ (d.server.history.issued.length < 2 ^ 64 → d.Tracked) := by
    refine h.preserves (P := fun d : Deployment =>
      d.Sound ∧ (d.server.history.issued.length < 2 ^ 64 → d.Tracked)) ?_
      ⟨h₀.sound, fun _ => h₀.tracked⟩
    intro d b d' hstep ⟨hd, htracked⟩
    have hm := act_move hstep
    refine ⟨hd.move hm, fun hbound => ?_⟩
    exact (htracked ((hd.later hm).issued.trans_lt hbound)).move hm hbound
  exact htracked.2 hissued

/-- Where the command `cmd` that was sent over `k` for the entry `pend`, or the reply to it, is. -/
inductive Pursued (d : Deployment) (cmd : Message) (pend k : ℕ) : Prop where
  /-- the worker has not read the command -/
  | unread (h : cmd ∈ commands (d.downstream k)) (hp : d.processes k ≠ none)
  /-- the worker has handled it, and the reply was lost -/
  | lost (h : cmd ∈ d.handledBy k) (hlost : ∀ p ∈ d.server.history.replied, p.cmd ≠ cmd)
  /-- the process of the worker has ended -/
  | exited (h : d.processes k = some .exited)
  /-- the reply has arrived, and the handler has not read it -/
  | arrived {frame msg} (h : frame ∈ d.server.inbound k) (hmsg : decodeMessage frame = .ok msg)
    (hid : msg.reqId = cmd.reqId)
  /-- the handler has read the reply, and looks for its entry -/
  | finding {msg slot} (hh : d.server.handlers k = some (.finding msg slot))
    (hid : msg.reqId = cmd.reqId)
  /-- the handler has found the entry, and passes the reply on -/
  | settling {msg slot} (hh : d.server.handlers k = some (.settling msg slot pend))
    (hid : msg.reqId = cmd.reqId)
  /-- the handler has left its loop -/
  | left {h} (hh : d.server.handlers k = some h) (hleft : h.hasLeft = true)

/-- Nothing moves but what clients send and connections that end: no handler has a step of its own
to take, and no worker has anything to send or to read. -/
def AtRest (d : Deployment) : Prop :=
  (∀ c (a : Coordinator.Action), a.worksAt c = true → d.server.act a = none) ∧
    ∀ k b, d.act (.register k b) = none ∧ d.act (.receive k b) = none

section Pursued

variable {d₀ : Deployment} {as : List Action} {c slot pend : ℕ} {call : Call} {sl : WorkerSlot}
  {pd : Pending}

theorem Tracked.pursued (h : d.Tracked)
    (hcorr : Server.Correlates (fun c => d.processes c ≠ none) d.server)
    (hh : d.server.handlers c = some (.calling call (.waiting slot pend)))
    (hsl : d.server.slots slot = some sl) (hpd : d.server.pends pend = some pd)
    (hopen : pd.done = false) : d.Pursued call.command pend sl.sock := by
  cases h.accounted h.sound.upright.alive c call slot pend sl pd hh hsl hpd hopen with
  | command hout =>
    obtain ⟨⟨w, hsent⟩, hunanswered⟩ := hcorr.wires.commands sl.sock call.command hout
    have hover : call.command ∈ sentOver d.server.history sl.sock := by
      simpa [sentOver] using ⟨_, ⟨hsent, rfl⟩, rfl⟩
    have hwaits (hw : d.Waits sl.sock) : d.Pursued call.command pend sl.sock := by
      rw [hw.sent] at hover
      rcases List.mem_append.mp hover with hby | hdown
      · exact .lost hby fun p hp he => hunanswered p hp (congrArg Message.reqId he)
      · exact .unread hdown (hcorr.ledger.sentBy _ hsent).1
    have horderly := h.sound.orderly sl.sock
    cases hp : d.processes sl.sock with
    | none =>
      rw [hp] at horderly
      exact hwaits horderly.1
    | some p =>
      rw [hp] at horderly
      cases p with
      | connected w => exact hwaits horderly.1
      | registering w => exact hwaits horderly.1
      | running w => exact hwaits horderly.1
      | exited => exact .exited hp
  | reply hin hmsg htype hid => exact .arrived hin hmsg hid
  | finding hk hid => exact .finding hk hid
  | settling hk hid => exact .settling hk hid
  | left hk hleft => exact .left hk hleft

/-- At rest the worker is gone, or its reply, or its connection. -/
def Broken (d : Deployment) (cmd : Message) (k : ℕ) : Prop :=
  (cmd ∈ d.handledBy k ∧ ∀ p ∈ d.server.history.replied, p.cmd ≠ cmd) ∨
    d.processes k = some .exited ∨ ∃ h, d.server.handlers k = some h ∧ h.isOver = true

theorem receives {k : ℕ} {x : Delivery} {rest : List Delivery} {w : WorkerService}
    (halive : d.server.terminated = false) (hx : d.downstream k = x :: rest)
    (hp : d.processes k = some (.registering w) ∨ d.processes k = some (.running w)) :
    d.act (.receive k true) ≠ none := by
  unfold act
  rw [if_neg (by simp [halive])]
  rcases hp with hp | hp
  · simp only [hp, hx, read]
    split <;> simp
  · simp only [hp, hx, read]
    split <;> simp

theorem Tracked.at_rest (h : d.Tracked) (hrest : d.AtRest) {k : ℕ} {cmd : Message}
    (hworker : ∃ h, d.server.handlers k = some h ∧ h.isWorker = true) (hp : d.Pursued cmd pend k) :
    d.Broken cmd k := by
  have halive := h.sound.upright.alive
  -- a handler at rest is idle
  have hidle {hd : Handler} (hh : d.server.handlers k = some hd) : hd.Idle d.server k := by
    rcases Server.idle_or_works h.resolved halive hh with hidle | ⟨a, hworks, hact⟩
    · exact hidle
    · rw [hrest.1 k a hworks] at hact
      cases hact
  cases hp with
  | unread hdown hsome =>
    obtain ⟨x, rest, hx⟩ : ∃ x rest, d.downstream k = x :: rest := by
      cases hx : d.downstream k with
      | nil =>
        rw [hx] at hdown
        cases hdown
      | cons x rest => exact ⟨x, rest, rfl⟩
    cases hproc : d.processes k with
    | none => exact absurd hproc hsome
    | some p =>
      cases p with
      | connected w =>
        have hact := (hrest.2 k false).1
        simp [act, halive, hproc] at hact
      | registering w => exact absurd (hrest.2 k true).2 (receives halive hx (.inl hproc))
      | running w => exact absurd (hrest.2 k true).2 (receives halive hx (.inr hproc))
      | exited => exact .inr (.inl hproc)
  | lost hby hlost => exact .inl ⟨hby, hlost⟩
  | exited hproc => exact .inr (.inl hproc)
  | arrived hin hmsg hid =>
    obtain ⟨hd, hh, hw⟩ := hworker
    have hidle := hidle hh
    cases hd with
    | reading slot =>
      have hnil : d.server.inbound k = [] := hidle
      rw [hnil] at hin
      cases hin
    | calling call phase => cases hw
    | finished slot => exact .inr (.inr ⟨_, hh, rfl⟩)
    | returned slot => exact .inr (.inr ⟨_, hh, rfl⟩)
    | _ => exact hidle.elim
  | finding hh hid => exact (hidle hh).elim
  | settling hh hid => exact (hidle hh).elim
  | @left hd hh hleft =>
    have hidle := hidle hh
    cases hd with
    | finished slot => exact .inr (.inr ⟨_, hh, rfl⟩)
    | returned slot => exact .inr (.inr ⟨_, hh, rfl⟩)
    | closing slot => exact hidle.elim
    | sweeping slot => exact hidle.elim
    | downing slot => exact hidle.elim
    | _ => cases hleft

/-- No request is lost on its way. In every run of the coordinator and its workers, whenever a call
waits, its command waits to be read by the worker, or the reply is under way to the call, or the
worker, its reply or its connection is gone; and when everything has come to rest, only this is
left to wait for. -/
theorem waits_accounted (h₀ : Initial d₀) (h : Run.Steps Step d₀ as d)
    (hissued : d.server.history.issued.length < 2 ^ 64)
    (hh : d.server.handlers c = some (.calling call (.waiting slot pend)))
    (hsl : d.server.slots slot = some sl) (hpd : d.server.pends pend = some pd)
    (hopen : pd.done = false) :
    d.Pursued call.command pend sl.sock ∧ (d.AtRest → d.Broken call.command sl.sock) := by
  have htracked := Steps.tracked h₀ h hissued
  have hpursued := htracked.pursued (Steps.correlates h₀ h hissued) hh hsl hpd hopen
  exact ⟨hpursued, fun hrest => htracked.at_rest hrest (htracked.posted slot sl hsl) hpursued⟩

end Pursued

/-- A worker registers, and a client asks for a load that the worker has not read. -/
def asksLoad : List Action :=
  [.launch 0 workerOptions, .register 0 true] ++
    [.read 0, .advance 0, .advance 0, .send 0 true].map .coordinator ++ [.receive 0 true] ++
    [.accept 1, .peer 1 (encodeMessage adapterRequest), .read 1, .advance 1, .send 1 true,
      .peer 1 (encodeMessage processLoad), .read 1, .advance 1, .advance 1, .advance 1, .advance 1,
      .advance 1, .advance 1, .send 1 true].map .coordinator

theorem waits_accounted_sample : ∃ d call, Run.Steps Step coordinatorAlone asksLoad d ∧
    d.server.handlers 1 = some (.calling call (.waiting 0 1)) ∧ d.Pursued call.command 1 0 := by
  obtain ⟨d, hrun, hwait, hsock, hopen, hissued⟩ :
      ∃ d : Deployment, Run.tryExec act asksLoad coordinatorAlone = some d ∧
        (d.server.waitingAt 1 = some (1, 0, 1) ∧ (d.server.slots 0).map (·.sock) = some 0 ∧
          (d.server.pends 1).map (·.done) = some false ∧
          d.server.history.issued.length < 2 ^ 64) :=
    Run.exists_tryExec (by decide +kernel)
  have hsteps := Run.Steps.of_tryExec hrun
  obtain ⟨call, hh, -⟩ := Server.waitingAt_eq.mp hwait
  obtain ⟨sl, hsl, hzero⟩ := Option.map_eq_some_iff.mp hsock
  obtain ⟨pd, hpd, hdone⟩ := Option.map_eq_some_iff.mp hopen
  have hpursued := (waits_accounted coordinatorAlone_initial hsteps hissued hh hsl hpd hdone).1
  rw [hzero] at hpursued
  exact ⟨d, call, hsteps, hh, hpursued⟩

end Deployment

end Coordinator

end AdapterFabric
