import AdapterFabric.Lib.Run
import Mathlib.Data.List.Infix

/-!
# AdapterFabric.Migration

The phases of a migration (`migration.hpp`, `migration.cpp`).

* `journeys_iff`: whatever is asked of a machine, and in whatever order, the phases it has gone
  through since the last reset are part of one of two itineraries, or such a part broken off; and
  all of these can be had.
-/

namespace AdapterFabric

inductive MigrationPhase where
  | notStarted | sourceValidated | destinationReserved | transferring | verifying
  | destinationReady | authorityPromoted | sourceRetired | sourceReleased | aborted
deriving DecidableEq

structure MigrationStateMachine where
  phase : MigrationPhase := .notStarted
  destructive : Bool := false
deriving DecidableEq

namespace MigrationStateMachine

open MigrationPhase

def canAdvance (m : MigrationStateMachine) (next : MigrationPhase) : Bool :=
  if m.phase = aborted ∨ m.phase = sourceReleased then false
  else
    match m.phase with
    | notStarted => next = sourceValidated ∨ next = aborted
    | sourceValidated => next = destinationReserved ∨ next = aborted
    | destinationReserved => next = transferring ∨ next = aborted
    | transferring => next = verifying ∨ next = aborted
    | verifying => next = destinationReady ∨ next = aborted ∨
        (m.destructive ∧ next = authorityPromoted)
    | destinationReady => next = authorityPromoted ∨ next = aborted
    | authorityPromoted => next = sourceRetired ∨ next = aborted
    | sourceRetired => next = sourceReleased ∨ next = aborted
    | aborted => false
    | sourceReleased => false

def advance (m : MigrationStateMachine) (next : MigrationPhase) : Bool × MigrationStateMachine :=
  if ¬ m.canAdvance next then (false, m)
  else (true, { m with phase := next })

def reset (m : MigrationStateMachine) : MigrationStateMachine := { m with phase := .notStarted }

/-! ## Journeys -/

/-- The way of a migration; the shorter one does without a ready destination. -/
def itinerary (short : Bool) : List MigrationPhase :=
  [sourceValidated, destinationReserved, transferring, verifying] ++
    (if short then [] else [destinationReady]) ++ [authorityPromoted, sourceRetired, sourceReleased]

/-- As far along an itinerary as the migration has come, or as it had come when it was aborted. Only
a destructive migration may take the shorter one. -/
def Journey (destructive : Bool) (log : List MigrationPhase) : Prop :=
  ∃ short : Bool, (short = true → destructive = true) ∧
    (log <+: itinerary short ∨
      ∃ way, way <+: itinerary short ∧ way ≠ itinerary short ∧ log = way ++ [aborted])

/-- The phase in which a log ends. -/
def phaseAfter (log : List MigrationPhase) : MigrationPhase := log.getLast?.getD .notStarted

theorem aborted_notMem (short : Bool) : aborted ∉ itinerary short := by
  cases short <;> decide

theorem canAdvance_take (next : MigrationPhase) : ∀ destructive short : Bool,
    (short = true → destructive = true) → ∀ k ≤ 8,
    (canAdvance ⟨phaseAfter ((itinerary short).take k), destructive⟩ next = true ↔
      (∃ short' : Bool, (short' = true → destructive = true) ∧
        (itinerary short).take k ++ [next] <+: itinerary short') ∨
      next = aborted ∧ (itinerary short).take k ≠ itinerary short) := by
  cases next <;> decide +kernel

theorem length_itinerary_le (short : Bool) : (itinerary short).length ≤ 8 := by
  cases short <;> decide

/-- The phases that are allowed next are those that go on with the journey. -/
theorem canAdvance_iff {destructive : Bool} {log : List MigrationPhase}
    (h : Journey destructive log) (next : MigrationPhase) :
    canAdvance ⟨phaseAfter log, destructive⟩ next = true ↔ Journey destructive (log ++ [next]) := by
  obtain ⟨short, hshort, hway | ⟨way, -, -, rfl⟩⟩ := h
  · have htake := List.prefix_iff_eq_take.mp hway
    have hle := hway.length_le.trans (length_itinerary_le short)
    have hstep := canAdvance_take next destructive short hshort log.length hle
    rw [← htake] at hstep
    rw [hstep]
    constructor
    · rintro (⟨short', hshort', hnext⟩ | ⟨rfl, hne⟩)
      · exact ⟨short', hshort', .inl hnext⟩
      · exact ⟨short, hshort, .inr ⟨log, hway, hne, rfl⟩⟩
    · rintro ⟨short', hshort', hnext | ⟨way, hway', hne, heq⟩⟩
      · exact .inl ⟨short', hshort', hnext⟩
      · obtain ⟨rfl, hnext⟩ := List.append_inj' heq rfl
        obtain rfl := List.cons.inj hnext |>.1
        refine .inr ⟨rfl, ?_⟩
        -- the whole of an itinerary is not part of the other one
        intro hwhole
        rw [hwhole] at hway' hne
        revert hway' hne
        cases short <;> cases short' <;> decide
  · -- nothing comes after an abort
    have hno : canAdvance ⟨phaseAfter (way ++ [aborted]), destructive⟩ next = false := by
      simp [canAdvance, phaseAfter]
    rw [hno]
    refine iff_of_false Bool.false_ne_true ?_
    rintro ⟨short', -, hnext | ⟨way', hway', -, heq⟩⟩
    · exact aborted_notMem short' (hnext.subset (by simp))
    · obtain ⟨rfl, -⟩ := List.append_inj' heq rfl
      exact aborted_notMem short' (hway'.subset (by simp))

theorem Journey.nil (destructive : Bool) : Journey destructive [] :=
  ⟨false, Bool.false_ne_true.elim, .inl List.nil_prefix⟩

theorem Journey.of_append {destructive : Bool} {log : List MigrationPhase} {last : MigrationPhase}
    (h : Journey destructive (log ++ [last])) : Journey destructive log := by
  obtain ⟨short, hshort, hway | ⟨way, hway, -, heq⟩⟩ := h
  · exact ⟨short, hshort, .inl ((List.prefix_append _ _).trans hway)⟩
  · obtain ⟨rfl, -⟩ := List.append_inj' heq rfl
    exact ⟨short, hshort, .inl hway⟩

/-! ## Runs -/

inductive Call where
  | advance (next : MigrationPhase)
  | reset
deriving DecidableEq

/-- A machine, and the phases it has gone through since the last reset. -/
structure Logged where
  machine : MigrationStateMachine
  log : List MigrationPhase := []
deriving DecidableEq

def Call.apply : Call → Logged → Logged
  | .advance next, l =>
    let (ok, machine) := l.machine.advance next
    ⟨machine, if ok then l.log ++ [next] else l.log⟩
  | .reset, l => ⟨l.machine.reset, []⟩

theorem Call.apply_advance (next : MigrationPhase) (l : Logged) :
    (Call.advance next).apply l =
      if l.machine.canAdvance next then ⟨{ l.machine with phase := next }, l.log ++ [next]⟩
      else l := by
  by_cases hcan : l.machine.canAdvance next = true
  · simp [Call.apply, MigrationStateMachine.advance, hcan]
  · simp [Call.apply, MigrationStateMachine.advance, hcan]

/-- A new machine after some calls. -/
def after (destructive : Bool) (calls : List Call) : Logged :=
  Run.exec Call.apply calls ⟨{ destructive }, []⟩

/-- The machine is in the phase that ends the log. -/
def Logged.Keeps (destructive : Bool) (l : Logged) : Prop :=
  l.machine = ⟨phaseAfter l.log, destructive⟩ ∧ Journey destructive l.log

theorem Logged.Keeps.apply {destructive : Bool} {l : Logged} (h : l.Keeps destructive)
    (call : Call) : (call.apply l).Keeps destructive := by
  obtain ⟨hmachine, hjourney⟩ := h
  cases call with
  | advance next =>
    rw [Call.apply_advance]
    by_cases hcan : l.machine.canAdvance next = true
    · rw [if_pos hcan]
      rw [hmachine] at hcan ⊢
      exact ⟨by simp [phaseAfter], (canAdvance_iff hjourney next).mp hcan⟩
    · rw [if_neg hcan]
      exact ⟨hmachine, hjourney⟩
  | reset => exact ⟨by simp [Call.apply, MigrationStateMachine.reset, phaseAfter, hmachine], .nil _⟩

theorem keeps_after (destructive : Bool) (calls : List Call) :
    (after destructive calls).Keeps destructive :=
  Run.exec_preserves (fun call _ _ h => h.apply call) ⟨rfl, .nil _⟩

theorem after_journey {destructive : Bool} {log : List MigrationPhase}
    (h : Journey destructive log) : (after destructive (log.map .advance)).log = log := by
  induction log using List.reverseRecOn with
  | nil => rfl
  | append_singleton log last ih =>
    have hlog := ih h.of_append
    obtain ⟨hmachine, -⟩ := keeps_after destructive (log.map .advance)
    have hcan := (canAdvance_iff h.of_append last).mpr h
    rw [hlog] at hmachine
    rw [← hmachine] at hcan
    rw [List.map_append, after, Run.exec_append, List.map_singleton, Run.exec_cons, Run.exec_nil,
      Call.apply_advance]
    exact (congrArg Logged.log (if_pos hcan)).trans (congrArg (· ++ [last]) hlog)

/-- Whatever calls are made, the phases since the last reset are a journey, and the machine is in
the last of them; and every journey is what some calls come to. -/
theorem journeys_iff (destructive : Bool) (l : Logged) :
    (∃ calls, after destructive calls = l) ↔
      l.machine = ⟨phaseAfter l.log, destructive⟩ ∧ Journey destructive l.log := by
  constructor
  · rintro ⟨calls, rfl⟩
    exact keeps_after destructive calls
  · rintro ⟨hmachine, hjourney⟩
    have hlog := after_journey hjourney
    obtain ⟨hend, -⟩ := keeps_after destructive (l.log.map .advance)
    rw [hlog, ← hmachine] at hend
    exact ⟨l.log.map .advance, congr (congrArg Logged.mk hend) hlog⟩

end MigrationStateMachine

end AdapterFabric
