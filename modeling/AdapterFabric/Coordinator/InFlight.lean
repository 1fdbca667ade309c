import AdapterFabric.Coordinator.Correlation

/-!
# AdapterFabric.Coordinator.InFlight

What stands in `pending_`, whatever the peers do.

* `Tidy.move`: a call of `forward_to_worker` enters itself under an id of its own and takes the
  entry out again.
* `pending_exact`: so the table lists the calls in flight, each once, and nothing else.
-/

namespace AdapterFabric

namespace Coordinator

open Interleave

/-- The call has made its entry, and has not removed it. -/
def CallPhase.entered : CallPhase → Bool
  | checking _ => false
  | inserting _ => false
  | _ => true

def Handler.entered : Handler → Bool
  | calling _ phase => phase.entered
  | _ => false

/-- A handler holds and calls with ids that were issued to it. -/
def Handler.Owns (issued : List Issue) (c : ℕ) : Handler → Prop
  | serving p => ∃ held, Numbered held p ∧ ∀ n, held = some n → ⟨c, n⟩ ∈ issued
  | calling call _ => (∀ m, Numbered none (call.k m)) ∧ ⟨c, call.reqId⟩ ∈ issued
  | _ => True

/-- Ids are issued one after the other. -/
structure Issues (next : UInt64) (issued : List Issue) : Prop where
  count : next = UInt64.ofNat (issued.length + 1)
  bounded : ∀ x ∈ issued, 0 < x.reqId.toNat ∧ x.reqId.toNat ≤ issued.length
  nodup : (issued.map (·.reqId)).Nodup

structure Tidy (next : UInt64) (issued : List Issue)
    (pending : Std.ExtTreeMap UInt64 ℕ compare) (handlers : ℕ → Option Handler) : Prop where
  issues : Issues next issued
  owns : ∀ c h, handlers c = some h → h.Owns issued c
  entry : ∀ (n : UInt64) (pend : ℕ), pending[n]? = some pend →
    ∃ c call phase, handlers c = some (.calling call phase) ∧ phase.entered = true ∧
      call.reqId = n
  entered : ∀ c call phase, handlers c = some (.calling call phase) → phase.entered = true →
    ∃ pend, pending[call.reqId]? = some pend ∧ ∀ ref ∈ phase.pendRefs, ref = pend

abbrev Server.Tidied (s : Server) : Prop :=
  Tidy s.shared.nextReq s.history.issued s.pending s.handlers

theorem Handler.Owns.mono {issued issued' : List Issue} {c : ℕ} {h : Handler}
    (howns : h.Owns issued c) (hsub : issued ⊆ issued') : h.Owns issued' c := by
  cases h with
  | serving p =>
    obtain ⟨held, hnum, hheld⟩ := howns
    exact ⟨held, hnum, fun n hn => hsub (hheld n hn)⟩
  | calling call phase => exact ⟨howns.1, hsub howns.2⟩
  | _ => trivial

section Steps

variable {next : UInt64} {issued : List Issue} {pending : Std.ExtTreeMap UInt64 ℕ compare}
  {handlers : ℕ → Option Handler} {c : ℕ} {call : Call} {phase : CallPhase}

theorem Tidy.conn_eq (h : Tidy next issued pending handlers) {d : ℕ} {n : UInt64}
    (hc : ⟨c, n⟩ ∈ issued) (hd : ⟨d, n⟩ ∈ issued) : c = d :=
  congrArg Issue.conn (List.inj_on_of_nodup_map h.issues.nodup hc hd rfl)

theorem Tidy.reqId_ne (h : Tidy next issued pending handlers)
    (hh : handlers c = some (.calling call phase)) {d : ℕ} {call' : Call} {phase' : CallPhase}
    (hh' : handlers d = some (.calling call' phase')) (hne : d ≠ c) :
    call.reqId ≠ call'.reqId := by
  intro hid
  have howns' : ⟨d, call'.reqId⟩ ∈ issued := (h.owns d _ hh').2
  exact hne (h.conn_eq howns' (hid ▸ (h.owns c _ hh).2))

theorem Tidy.owns_update (h : Tidy next issued pending handlers) {hd : Handler}
    (howns : hd.Owns issued c) :
    ∀ d hd', Function.update handlers c (some hd) d = some hd' → hd'.Owns issued d := by
  intro d hd' hh
  by_cases hdc : d = c
  · subst hdc
    rw [Function.update_self] at hh
    cases hh
    exact howns
  · rw [Function.update_of_ne hdc] at hh
    exact h.owns d hd' hh

theorem Tidy.goto (h : Tidy next issued pending handlers) {hd : Handler}
    (howns : hd.Owns issued c) (hold : ∀ old, handlers c = some old → old.entered = false)
    (hnew : hd.entered = false) :
    Tidy next issued pending (Function.update handlers c (some hd)) := by
  refine ⟨h.issues, h.owns_update howns, ?_, ?_⟩
  · intro n pend hn
    obtain ⟨d, call, phase, hh, hin, hid⟩ := h.entry n pend hn
    have hdc : d ≠ c := by
      rintro rfl
      have := hold _ hh
      rw [Handler.entered, hin] at this
      cases this
    exact ⟨d, call, phase, by rwa [Function.update_of_ne hdc], hin, hid⟩
  · intro d call phase hh hin
    by_cases hdc : d = c
    · subst hdc
      rw [Function.update_self] at hh
      cases hh
      rw [Handler.entered, hin] at hnew
      cases hnew
    · rw [Function.update_of_ne hdc] at hh
      exact h.entered d call phase hh hin

theorem Tidy.rephase (h : Tidy next issued pending handlers)
    (hh : handlers c = some (.calling call phase)) (hin : phase.entered = true)
    {phase' : CallPhase} (hin' : phase'.entered = true)
    (hrefs : ∀ ref ∈ phase'.pendRefs, ref ∈ phase.pendRefs) :
    Tidy next issued pending (Function.update handlers c (some (.calling call phase'))) := by
  have howns := h.owns c _ hh
  refine ⟨h.issues, h.owns_update ⟨howns.1, howns.2⟩, ?_, ?_⟩
  · intro n pend hn
    obtain ⟨d, call', phase₀, hh', hin₀, hid⟩ := h.entry n pend hn
    by_cases hdc : d = c
    · subst hdc
      rw [hh] at hh'
      cases hh'
      exact ⟨d, call, phase', by rw [Function.update_self], hin', hid⟩
    · exact ⟨d, call', phase₀, by rwa [Function.update_of_ne hdc], hin₀, hid⟩
  · intro d call' phase₀ hh' hin₀
    by_cases hdc : d = c
    · subst hdc
      rw [Function.update_self] at hh'
      cases hh'
      obtain ⟨pend, hpend, hall⟩ := h.entered d call phase hh hin
      exact ⟨pend, hpend, fun ref href => hall ref (hrefs ref href)⟩
    · rw [Function.update_of_ne hdc] at hh'
      exact h.entered d call' phase₀ hh' hin₀

theorem Tidy.insert (h : Tidy next issued pending handlers) {slot : ℕ}
    (hh : handlers c = some (.calling call (.inserting slot))) (ref : ℕ) :
    Tidy next issued (pending.insert call.reqId ref)
      (Function.update handlers c (some (.calling call (.sending slot ref)))) := by
  have howns := h.owns c _ hh
  refine ⟨h.issues, h.owns_update ⟨howns.1, howns.2⟩, ?_, ?_⟩
  · intro n pend hn
    rcases Table.of_insert hn with ⟨hid, -⟩ | hn
    · exact ⟨c, call, _, by rw [Function.update_self], rfl, hid⟩
    obtain ⟨d, call', phase', hh', hin, hid⟩ := h.entry n pend hn
    have hdc : d ≠ c := by
      rintro rfl
      rw [hh] at hh'
      cases hh'
      cases hin
    exact ⟨d, call', phase', by rwa [Function.update_of_ne hdc], hin, hid⟩
  · intro d call' phase' hh' hin
    rw [Table.get_insert]
    by_cases hdc : d = c
    · subst hdc
      rw [Function.update_self] at hh'
      cases hh'
      exact ⟨ref, if_pos rfl, fun ref' href => List.mem_singleton.mp href⟩
    · rw [Function.update_of_ne hdc] at hh'
      rw [if_neg (h.reqId_ne hh hh' hdc)]
      exact h.entered d call' phase' hh' hin

theorem Tidy.erase (h : Tidy next issued pending handlers)
    (hh : handlers c = some (.calling call phase)) (result : Message) :
    Tidy next issued (pending.erase call.reqId)
      (Function.update handlers c (some (.serving (call.k result)))) := by
  refine ⟨h.issues, h.owns_update ⟨none, (h.owns c _ hh).1 result, nofun⟩, ?_, ?_⟩
  · intro n pend hn
    rw [Table.get_erase] at hn
    split at hn
    · cases hn
    rename_i hne
    obtain ⟨d, call', phase', hh', hin, hid⟩ := h.entry n pend hn
    have hdc : d ≠ c := by
      rintro rfl
      rw [hh] at hh'
      cases hh'
      exact hne hid
    exact ⟨d, call', phase', by rwa [Function.update_of_ne hdc], hin, hid⟩
  · intro d call' phase' hh' hin
    have hdc : d ≠ c := by
      rintro rfl
      rw [Function.update_self] at hh'
      cases hh'
    rw [Function.update_of_ne hdc] at hh'
    rw [Table.get_erase, if_neg (h.reqId_ne hh hh' hdc)]
    exact h.entered d call' phase' hh' hin

theorem Tidy.issue (h : Tidy next issued pending handlers)
    (hbound : issued.length + 1 < 2 ^ 64) (c : ℕ) :
    Tidy (next + 1) (⟨c, next⟩ :: issued) pending handlers := by
  have htoNat : next.toNat = issued.length + 1 := by
    rw [h.issues.count]
    exact UInt64.toNat_ofNat_of_lt' hbound
  refine ⟨⟨?_, ?_, ?_⟩, ?_, h.entry, h.entered⟩
  · rw [h.issues.count, List.length_cons, UInt64.ofNat_add (issued.length + 1) 1]
    rfl
  · intro x hx
    rw [List.length_cons]
    rcases List.mem_cons.mp hx with rfl | hx
    · exact ⟨htoNat ▸ Nat.succ_pos _, htoNat.le⟩
    · obtain ⟨hpos, hle⟩ := h.issues.bounded x hx
      exact ⟨hpos, hle.trans (Nat.le_succ _)⟩
  · rw [List.map_cons, List.nodup_cons]
    refine ⟨fun hmem => ?_, h.issues.nodup⟩
    obtain ⟨x, hx, hid⟩ := List.mem_map.mp hmem
    have := (h.issues.bounded x hx).2
    rw [hid, htoNat] at this
    omega
  · intro d hd hh
    exact (h.owns d hd hh).mono fun x hx => List.mem_cons_of_mem _ hx

end Steps

namespace Server

variable {s s' : Server} {a : Action}

theorem not_entered {c : ℕ} {h : Handler} (hh : s.handlers c = some h) (hin : h.entered = false) :
    ∀ old, s.handlers c = some old → old.entered = false := by
  intro old hold
  rw [hh] at hold
  cases hold
  exact hin

theorem Tidied.move (hm : Move s a s') (hbound : s'.history.issued.length < 2 ^ 64)
    (h : s.Tidied) : s'.Tidied := by
  cases hm with
  | accept hnew => exact Tidy.goto h trivial (by simp [hnew]) rfl
  | peer hh => exact h
  | reply hcmd hmsg => exact h
  | enterThrew hh => exact h
  | registerThrew hh hin => exact h
  | readRequest hh hin hmsg htype =>
    exact Tidy.goto h ⟨none, numbered_processControl _, nofun⟩ (not_entered hh rfl) rfl
  | sendCommand hh hsl => exact Tidy.rephase h hh rfl rfl fun _ href => href
  | sendLost hh => exact Tidy.rephase h hh rfl rfl nofun
  | wake hh hpd hdone => exact Tidy.rephase h hh rfl rfl nofun
  | @locked c sec k hh =>
    obtain ⟨held, hnum, hheld⟩ := h.owns c _ hh
    have hnext : Tidy (sec.run s.shared).2.nextReq s.history.issued s.pending s.handlers :=
      (sec.run_nextReq s.shared).symm ▸ h
    exact hnext.goto ⟨held, hnum.locked _, hheld⟩ (not_entered hh rfl) rfl
  | @nextReq c k hh =>
    obtain ⟨held, hnum, -⟩ := h.owns c _ hh
    refine (Tidy.issue h hbound c).goto ⟨_, hnum.nextReq _, ?_⟩ (not_entered hh rfl) rfl
    intro n hn
    cases hn
    exact List.mem_cons_self ..
  | @shutdown c k hh =>
    obtain ⟨held, hnum, hheld⟩ := h.owns c _ hh
    exact Tidy.goto h ⟨held, hnum.shutdown, hheld⟩ (not_entered hh rfl) rfl
  | @call c reqId workerId fwd k hh =>
    obtain ⟨held, hnum, hheld⟩ := h.owns c _ hh
    obtain ⟨hid, hk⟩ := hnum.forward
    exact Tidy.goto h ⟨hk, hheld reqId hid⟩ (not_entered hh rfl) rfl
  | @checkFailed c call slot hh =>
    exact Tidy.goto h ⟨none, (h.owns c _ hh).1 _, nofun⟩ (not_entered hh rfl) rfl
  | @check c call slot sl hh hsl hconn =>
    have howns := h.owns c _ hh
    exact Tidy.goto h ⟨howns.1, howns.2⟩ (not_entered hh rfl) rfl
  | insert hh => exact Tidy.insert h hh _
  | unsend hh => exact Tidy.erase h hh _
  | erase hh => exact Tidy.erase h hh _
  | hangup hh => exact Tidy.goto h trivial (not_entered hh rfl) rfl
  | hangupWorker hh => exact Tidy.goto h trivial (not_entered hh rfl) rfl
  | undecodable hh => exact Tidy.goto h trivial (not_entered hh rfl) rfl
  | register hh => exact Tidy.goto h trivial (not_entered hh rfl) rfl
  | readReply hh => exact Tidy.goto h trivial (not_entered hh rfl) rfl
  | readIgnored hh => exact Tidy.goto h trivial (not_entered hh rfl) rfl
  | ack hh => exact Tidy.goto h trivial (not_entered hh rfl) rfl
  | answer hh => exact Tidy.goto h trivial (not_entered hh rfl) rfl
  | answerLost hh => exact Tidy.goto h trivial (not_entered hh rfl) rfl
  | enterSlot hh => exact Tidy.goto h trivial (not_entered hh rfl) rfl
  | enterFabric hh hrec => exact Tidy.goto h trivial (not_entered hh rfl) rfl
  | find hh hpend => exact Tidy.goto h trivial (not_entered hh rfl) rfl
  | findNone hh => exact Tidy.goto h trivial (not_entered hh rfl) rfl
  | settle hh => exact Tidy.goto h trivial (not_entered hh rfl) rfl
  | close hh => exact Tidy.goto h trivial (not_entered hh rfl) rfl
  | sweep hh => exact Tidy.goto h trivial (not_entered hh rfl) rfl
  | down hh hsl => exact Tidy.goto h trivial (not_entered hh rfl) rfl

theorem Initial.tidied (h : Initial s) : s.Tidied := by
  obtain ⟨limits, rng, rfl⟩ := h
  exact ⟨⟨rfl, nofun, .nil⟩, nofun, by simp, nofun⟩

/-- Whatever the peers send and in whatever order the handlers are scheduled, the pending table has
an entry for just the calls that have made theirs and not removed it, a call that waits finds its
own object there, and no two calls have one id. -/
theorem pending_exact {s₀ : Server} {as : List Action} (h₀ : Initial s₀)
    (h : Run.Steps Step s₀ as s) (hissued : s.history.issued.length < 2 ^ 64) :
    (∀ n : UInt64, n ∈ s.pending ↔
      ∃ c call phase, s.handlers c = some (.calling call phase) ∧ phase.entered = true ∧
        call.reqId = n) ∧
      (∀ c call phase, s.handlers c = some (.calling call phase) → ∀ ref ∈ phase.pendRefs,
        s.pending[call.reqId]? = some ref) ∧
      ∀ c d call call' phase phase', s.handlers c = some (.calling call phase) →
        s.handlers d = some (.calling call' phase') → call.reqId = call'.reqId → c = d := by
  have htidied : s.Tidied :=
    h.preserves (P := fun s : Server => s.history.issued.length < 2 ^ 64 → s.Tidied)
      (fun hstep hs hbound => by
        have hm := act_move hstep
        exact (hs (hm.issued_le.trans_lt hbound)).move hm hbound)
      (fun _ => h₀.tidied) hissued
  refine ⟨fun n => ⟨fun hn => ?_, ?_⟩, fun c call phase hh ref href => ?_, ?_⟩
  · obtain ⟨pend, hpend⟩ := Option.isSome_iff_exists.mp (by simpa using hn : s.pending[n]?.isSome)
    exact htidied.entry n pend hpend
  · rintro ⟨c, call, phase, hh, hin, rfl⟩
    obtain ⟨pend, hpend, -⟩ := htidied.entered c call phase hh hin
    exact Std.ExtTreeMap.mem_iff_isSome_getElem?.mpr (hpend ▸ rfl)
  · have hin : phase.entered = true := by
      cases phase <;> first | rfl | cases href
    obtain ⟨pend, hpend, hall⟩ := htidied.entered c call phase hh hin
    rw [hpend, hall ref href]
  · intro c d call call' phase phase' hh hh' hid
    by_contra hne
    exact htidied.reqId_ne hh hh' (Ne.symm hne) hid

/-- A request for a worker that has not answered. -/
theorem pending_exact_sample :
    ∃ s, Run.Steps Step start (joins 0 workerRegistration ++ asks 1 deactivateRequest ++ forwards 1)
        s ∧ (1 : UInt64) ∈ s.pending := by
  obtain ⟨s, hs, hwait, hissued⟩ :
      ∃ s : Server, Run.tryExec act
          (joins 0 workerRegistration ++ asks 1 deactivateRequest ++ forwards 1) start = some s ∧
        s.waitingAt 1 = some (1, 0, 1) ∧ s.history.issued.length < 2 ^ 64 :=
    Run.exists_tryExec (by decide +kernel)
  have hrun := Run.Steps.of_tryExec hs
  obtain ⟨call, hh, hid⟩ := waitingAt_eq.mp hwait
  obtain ⟨hentries, -⟩ := pending_exact start_initial hrun hissued
  exact ⟨s, hrun, (hentries 1).mpr ⟨1, call, _, hh, rfl, hid⟩⟩

end Server

end Coordinator

end AdapterFabric
