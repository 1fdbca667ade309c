import AdapterFabric.Lib.Run
import Mathlib.Order.Lattice

/-!
# Lib.Counter

A counter that stamps what it issues, stays at a limit once it is there, and may be reset.

* `fresh_iff`: between two resets all stamps are fresh exactly when the counter starts ahead of the
  stamps around and does not pass its limit.
* `fresh_iff_between`: so a whole run stamps freshly exactly when that holds between any two resets.
* `freshEver_iff_between`: the same for stamps that must be above all that was ever around. The
  machine that remembers them is a machine again.
-/

namespace Counter

/-- A machine some of whose steps issue a stamp and others reset the counter. -/
structure Machine (σ α : Type) where
  apply : α → σ → σ
  next : σ → Nat
  /-- The stamp is around. -/
  issued : σ → Nat → Prop
  stamps : α → σ → Bool
  resets : α → Bool
  limit : Nat
  next_le : ∀ s, next s ≤ limit
  stamps_of_resets : ∀ {a} s, resets a = true → stamps a s = false
  frame : ∀ {a s}, resets a = false → stamps a s = false →
    next (apply a s) = next s ∧ ∀ n, issued (apply a s) n ↔ issued s n
  next_of_stamps : ∀ {a s}, stamps a s = true → next (apply a s) = min (next s + 1) limit
  issued_of_stamps : ∀ {a s}, stamps a s = true → issued (apply a s) (next s)
  of_issued : ∀ {a s n}, stamps a s = true → issued (apply a s) n → n = next s ∨ issued s n

variable {σ α : Type} (M : Machine σ α)

namespace Machine

/-- The next stamp is above zero and above every stamp around. -/
def Ahead (s : σ) : Prop := 0 < M.next s ∧ ∀ n, M.issued s n → n < M.next s

/-- Every stamp of the run is fresh when it is issued. -/
def Fresh (s : σ) (as : List α) : Prop :=
  ∀ pre a, pre ++ [a] <+: as → M.stamps a (Run.exec M.apply pre s) = true →
    M.Ahead (Run.exec M.apply pre s)

/-- How many stamps the run issues. -/
def count : List α → σ → Nat
  | [], _ => 0
  | a :: as, s => (if M.stamps a s = true then 1 else 0) + count as (M.apply a s)

/-- If the run issues stamps at all, it starts ahead and has room for them. -/
def Suffices (s : σ) (as : List α) : Prop :=
  0 < M.count as s → M.Ahead s ∧ M.next s + M.count as s ≤ M.limit + 1

variable {M}

theorem ahead_congr {s t : σ} (hnext : M.next t = M.next s)
    (hissued : ∀ n, M.issued t n ↔ M.issued s n) : M.Ahead t ↔ M.Ahead s := by
  simp only [Ahead, hnext, hissued]

/-- After a fresh stamp the counter is ahead again, unless it was at its limit. -/
theorem ahead_stamped {a : α} {s : σ} (hstamps : M.stamps a s = true) (hs : M.Ahead s) :
    M.Ahead (M.apply a s) ↔ M.next s < M.limit := by
  have hnext := M.next_of_stamps hstamps
  constructor
  · intro h
    have hlt := h.2 _ (M.issued_of_stamps hstamps)
    rw [hnext] at hlt
    omega
  · intro hlt
    have hsucc : M.next (M.apply a s) = M.next s + 1 := by omega
    refine ⟨by omega, fun n hn => ?_⟩
    rcases M.of_issued hstamps hn with rfl | hn
    · omega
    · have := hs.2 n hn
      omega

theorem fresh_cons {a : α} {as : List α} {s : σ} :
    M.Fresh s (a :: as) ↔ (M.stamps a s = true → M.Ahead s) ∧ M.Fresh (M.apply a s) as :=
  Run.steps_cons_iff (R := fun s a => M.stamps a s = true → M.Ahead s)

theorem count_stamped {a : α} {as : List α} {s : σ} (h : M.stamps a s = true) :
    M.count (a :: as) s = 1 + M.count as (M.apply a s) := by
  rw [count, if_pos h]

theorem count_unstamped {a : α} {as : List α} {s : σ} (h : ¬ M.stamps a s = true) :
    M.count (a :: as) s = M.count as (M.apply a s) := by
  rw [count, if_neg h, Nat.zero_add]

theorem fresh_iff {as : List α} (hresets : ∀ a ∈ as, M.resets a = false) {s : σ} :
    M.Fresh s as ↔ M.Suffices s as := by
  induction as generalizing s with
  | nil => simp [Fresh, Suffices, count]
  | cons a as ih =>
    have hih := ih (s := M.apply a s) fun b hb => hresets b (List.mem_cons_of_mem _ hb)
    rw [fresh_cons, hih]
    unfold Suffices
    by_cases hstamps : M.stamps a s = true
    · have hle := M.next_le s
      have hnext := M.next_of_stamps hstamps
      rw [count_stamped hstamps, hnext]
      constructor
      · rintro ⟨hahead, hrest⟩ _
        have hahead := hahead hstamps
        refine ⟨hahead, ?_⟩
        by_cases hmore : 0 < M.count as (M.apply a s)
        · obtain ⟨hahead', hroom⟩ := hrest hmore
          have hlt := (ahead_stamped hstamps hahead).mp hahead'
          omega
        · omega
      · intro h
        obtain ⟨hahead, hroom⟩ := h (by omega)
        refine ⟨fun _ => hahead, fun hmore => ?_⟩
        have hlt : M.next s < M.limit := by omega
        exact ⟨(ahead_stamped hstamps hahead).mpr hlt, by omega⟩
    · obtain ⟨hnext, hissued⟩ := M.frame (hresets a (by simp)) (by simpa using hstamps)
      rw [count_unstamped hstamps, hnext, ahead_congr hnext hissued]
      exact and_iff_right fun hs => absurd hs hstamps

theorem Fresh.segment {s : σ} {as pre seg : List α} (h : M.Fresh s as) (hpre : pre ++ seg <+: as) :
    M.Fresh (Run.exec M.apply pre s) seg := by
  intro pre' a hpre' hstamps
  rw [← Run.exec_append] at hstamps ⊢
  refine h (pre ++ pre') a ?_ hstamps
  rw [List.append_assoc]
  exact (List.prefix_append_right_inj pre |>.mpr hpre').trans hpre

theorem exists_last_split (p : α → Bool) (as : List α) :
    ∃ pre seg, as = pre ++ seg ∧ (pre = [] ∨ ∃ init a, pre = init ++ [a] ∧ p a = true) ∧
      ∀ a ∈ seg, p a = false := by
  induction as using List.reverseRecOn with
  | nil => exact ⟨[], [], rfl, .inl rfl, by simp⟩
  | append_singleton as a ih =>
    by_cases ha : p a = true
    · exact ⟨as ++ [a], [], by simp, .inr ⟨as, a, rfl, ha⟩, by simp⟩
    · obtain ⟨pre, seg, rfl, hpre, hseg⟩ := ih
      refine ⟨pre, seg ++ [a], by simp, hpre, fun b hb => ?_⟩
      rcases List.mem_append.mp hb with hb | hb
      · exact hseg b hb
      · rw [List.mem_singleton.mp hb]
        simpa using ha

theorem fresh_iff_between {s : σ} {as : List α} :
    M.Fresh s as ↔ ∀ pre seg, pre ++ seg <+: as →
      (pre = [] ∨ ∃ init a, pre = init ++ [a] ∧ M.resets a = true) →
      (∀ a ∈ seg, M.resets a = false) → M.Suffices (Run.exec M.apply pre s) seg := by
  constructor
  · intro h pre seg hpre _ hseg
    exact (fresh_iff hseg).mp (h.segment hpre)
  · intro h pre a hpre hstamps
    have ha : M.resets a = false := by
      by_contra hne
      rw [M.stamps_of_resets _ (by simpa using hne)] at hstamps
      cases hstamps
    obtain ⟨pre, seg, rfl, hstart, hseg⟩ := exists_last_split M.resets pre
    have hseg' : ∀ b ∈ seg ++ [a], M.resets b = false := by
      intro b hb
      rcases List.mem_append.mp hb with hb | hb
      · exact hseg b hb
      · rw [List.mem_singleton.mp hb]
        exact ha
    rw [List.append_assoc] at hpre
    have hfresh := (fresh_iff hseg').mpr (h pre (seg ++ [a]) hpre hstart hseg')
    rw [Run.exec_append] at hstamps ⊢
    exact hfresh seg a (List.prefix_refl _) hstamps

/-! ## Stamps that are gone -/

/-- The machine together with the stamps that were around before. -/
def remember (M : Machine σ α) : Machine (σ × (Nat → Prop)) α where
  apply a s := (M.apply a s.1, fun n => s.2 n ∨ M.issued s.1 n)
  next s := M.next s.1
  issued s n := s.2 n ∨ M.issued s.1 n
  stamps a s := M.stamps a s.1
  resets := M.resets
  limit := M.limit
  next_le s := M.next_le s.1
  stamps_of_resets s h := M.stamps_of_resets s.1 h
  frame := by
    intro a s hresets hstamps
    obtain ⟨hnext, hissued⟩ := M.frame hresets hstamps
    refine ⟨hnext, fun n => ?_⟩
    simp only [hissued]
    tauto
  next_of_stamps h := M.next_of_stamps h
  issued_of_stamps h := .inr (M.issued_of_stamps h)
  of_issued := by
    rintro a s n hstamps (hbefore | hissued)
    · exact .inr hbefore
    · rcases M.of_issued hstamps hissued with hnext | hissued
      · exact .inl hnext
      · exact .inr (.inr hissued)

variable (M) in
/-- After the run `as`, the next stamp is above zero and above every stamp that was around in any of
its states. -/
def AheadEver (s : σ) (as : List α) : Prop :=
  0 < M.next (Run.exec M.apply as s) ∧
    ∀ pre, pre <+: as → ∀ n, M.issued (Run.exec M.apply pre s) n →
      n < M.next (Run.exec M.apply as s)

variable (M) in
/-- Every stamp of the run is above all that were around before it was issued. -/
def FreshEver (s : σ) (as : List α) : Prop :=
  ∀ pre a, pre ++ [a] <+: as → M.stamps a (Run.exec M.apply pre s) = true → M.AheadEver s pre

theorem exec_remember (as : List α) (s : σ) (seen : Nat → Prop) :
    (Run.exec M.remember.apply as (s, seen)).1 = Run.exec M.apply as s := by
  induction as generalizing s seen with
  | nil => rfl
  | cons a as ih => exact ih _ _

theorem issued_remember (as : List α) (s : σ) (seen : Nat → Prop) (n : Nat) :
    M.remember.issued (Run.exec M.remember.apply as (s, seen)) n ↔
      seen n ∨ ∃ pre, pre <+: as ∧ M.issued (Run.exec M.apply pre s) n := by
  induction as generalizing s seen with
  | nil => simp [remember]
  | cons a as ih =>
    refine (ih (M.apply a s) fun n => seen n ∨ M.issued s n).trans ?_
    constructor
    · rintro ((hseen | hissued) | ⟨pre, hpre, hissued⟩)
      · exact .inl hseen
      · exact .inr ⟨[], List.nil_prefix, hissued⟩
      · exact .inr ⟨a :: pre, List.cons_prefix_cons.mpr ⟨rfl, hpre⟩, hissued⟩
    · rintro (hseen | ⟨pre, hpre, hissued⟩)
      · exact .inl (.inl hseen)
      · cases pre with
        | nil => exact .inl (.inr hissued)
        | cons b pre =>
          obtain ⟨rfl, htail⟩ := List.cons_prefix_cons.mp hpre
          exact .inr ⟨pre, htail, hissued⟩

theorem ahead_remember {s : σ} {as : List α} :
    M.remember.Ahead (Run.exec M.remember.apply as (s, fun _ => False)) ↔ M.AheadEver s as := by
  have hnext : M.remember.next (Run.exec M.remember.apply as (s, fun _ => False)) =
      M.next (Run.exec M.apply as s) := congrArg M.next (exec_remember as s _)
  unfold Ahead AheadEver
  simp only [hnext, issued_remember, false_or]
  exact and_congr_right fun _ => ⟨fun h pre hpre n hn => h n ⟨pre, hpre, hn⟩,
    fun h n ⟨pre, hpre, hn⟩ => h pre hpre n hn⟩

theorem count_remember (as : List α) (s : σ) (seen : Nat → Prop) :
    M.remember.count as (s, seen) = M.count as s := by
  induction as generalizing s seen with
  | nil => rfl
  | cons a as ih => exact congrArg (_ + ·) (ih _ _)

theorem freshEver_iff {s : σ} {as : List α} :
    M.FreshEver s as ↔ M.remember.Fresh (s, fun _ => False) as := by
  unfold FreshEver Fresh
  simp only [ahead_remember]
  refine forall₃_congr fun pre a _ => ?_
  show _ ↔ M.stamps a (Run.exec M.remember.apply pre (s, fun _ => False)).1 = true → _
  rw [exec_remember]

theorem freshEver_iff_between {s : σ} {as : List α} :
    M.FreshEver s as ↔ ∀ pre seg, pre ++ seg <+: as →
      (pre = [] ∨ ∃ init a, pre = init ++ [a] ∧ M.resets a = true) →
      (∀ a ∈ seg, M.resets a = false) → 0 < M.count seg (Run.exec M.apply pre s) →
      M.AheadEver s pre ∧
        M.next (Run.exec M.apply pre s) + M.count seg (Run.exec M.apply pre s) ≤ M.limit + 1 := by
  rw [freshEver_iff, fresh_iff_between]
  refine forall₅_congr fun pre seg _ _ _ => ?_
  unfold Suffices
  rw [ahead_remember]
  have hcount : M.remember.count seg (Run.exec M.remember.apply pre (s, fun _ => False)) =
      M.count seg (Run.exec M.apply pre s) := by
    rw [← exec_remember (M := M) pre s fun _ => False]
    exact count_remember _ _ _
  have hnext : M.remember.next (Run.exec M.remember.apply pre (s, fun _ => False)) =
      M.next (Run.exec M.apply pre s) := congrArg M.next (exec_remember pre s _)
  rw [hcount, hnext]
  rfl

end Machine

end Counter
