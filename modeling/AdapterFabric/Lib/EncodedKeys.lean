import AdapterFabric.Lib.Run
import AdapterFabric.Lib.Table

/-!
# Lib.EncodedKeys

Tables keyed by an injective encoding of the real keys.

* `view_exec`: read through the encoding, writes to the table are writes to a function on the real
  keys.
* `Canonical.ext`: a table with no other keys than encodings is determined by that function.
-/

namespace EncodedKeys

open Std

variable {ι κ α : Type} {cmp : κ → κ → Ordering} [TransCmp cmp] {e : ι → κ}

/-- What a table holds under the encoding of each key. -/
def view (e : ι → κ) (t : ExtTreeMap κ α cmp) : ι → Option α := fun i => t[e i]?

/-- Every key of the table encodes something. -/
def Canonical (e : ι → κ) (t : ExtTreeMap κ α cmp) : Prop :=
  ∀ (k : κ) (v : α), t[k]? = some v → ∃ i, e i = k

namespace Canonical

variable {t u : ExtTreeMap κ α cmp}

theorem empty : Canonical e (∅ : ExtTreeMap κ α cmp) := by
  intro k v h
  simp at h

section Lawful

variable [LawfulEqCmp cmp]

theorem ext (ht : Canonical e t) (hu : Canonical e u) (h : view e t = view e u) : t = u := by
  refine ExtTreeMap.ext_getElem? fun k => ?_
  by_cases hk : ∃ i, e i = k
  · obtain ⟨i, rfl⟩ := hk
    exact congrFun h i
  · have hnone {t : ExtTreeMap κ α cmp} (ht : Canonical e t) : t[k]? = none :=
      Option.eq_none_iff_forall_ne_some.mpr fun v hv => hk (ht k v hv)
    rw [hnone ht, hnone hu]

theorem map (h : Canonical e t) (f : κ → α → α) : Canonical e (t.map f) := by
  intro k w hw
  rw [ExtTreeMap.getElem?_map] at hw
  obtain ⟨v, hv, -⟩ := Option.map_eq_some_iff.mp hw
  exact h k v hv

variable [DecidableEq κ]

theorem insert (h : Canonical e t) (i : ι) (v : α) : Canonical e (t.insert (e i) v) := by
  intro k w hw
  rcases Table.of_insert hw with ⟨hk, -⟩ | hw
  · exact ⟨i, hk⟩
  · exact h k w hw

theorem erase (h : Canonical e t) (k : κ) : Canonical e (t.erase k) :=
  fun j v hv => h j v (Table.of_erase hv)

theorem modify (h : Canonical e t) (k : κ) (f : α → α) : Canonical e (t.modify k f) := by
  intro j w hw
  rcases Table.of_modify hw with ⟨rfl, v, hv, -⟩ | hw
  · exact h k v hv
  · exact h j w hw

theorem eraseAll (h : Canonical e t) (ks : List κ) :
    Canonical e (ks.foldl (fun t k => t.erase k) t) := by
  induction ks generalizing t with
  | nil => exact h
  | cons k ks ih => exact ih (h.erase k)

/-- A table made from values that carry the real keys. -/
theorem insertAll {key : α → ι} (h : Canonical e t) (as : List α) :
    Canonical e (as.foldl (fun t a => t.insert (e (key a)) a) t) := by
  induction as generalizing t with
  | nil => exact h
  | cons a as ih => exact ih (h.insert (key a) a)

end Lawful

end Canonical

variable [DecidableEq ι] [DecidableEq κ] [LawfulEqCmp cmp]

/-- The ways in which a table is written. -/
inductive Write (ι α : Type) where
  | put (i : ι) (v : α)
  | drop (i : ι)
  | alter (i : ι) (f : α → α)
  | each (f : α → α)

namespace Write

def onTable (e : ι → κ) : Write ι α → ExtTreeMap κ α cmp → ExtTreeMap κ α cmp
  | put i v, t => t.insert (e i) v
  | drop i, t => t.erase (e i)
  | alter i f, t => t.modify (e i) f
  | each f, t => t.map fun _ v => f v

/-- The same write to a map keyed by the real keys. -/
def onView : Write ι α → (ι → Option α) → ι → Option α
  | put i v, m => Function.update m i (some v)
  | drop i, m => Function.update m i none
  | alter i f, m => Function.update m i ((m i).map f)
  | each f, m => fun i => (m i).map f

theorem view_onTable (he : Function.Injective e) (w : Write ι α) (t : ExtTreeMap κ α cmp) :
    view e (w.onTable e t) = w.onView (view e t) := by
  funext j
  have hkey (i : ι) : e i = e j ↔ j = i := he.eq_iff.trans eq_comm
  cases w with
  | put i v => simp only [view, onTable, onView, Table.get_insert, hkey, Function.update_apply]
  | drop i => simp only [view, onTable, onView, Table.get_erase, hkey, Function.update_apply]
  | alter i f =>
    simp only [view, onTable, onView, Table.get_modify, hkey, Function.update_apply]
    by_cases h : j = i
    · rw [if_pos h, if_pos h, h]
    · rw [if_neg h, if_neg h]
  | each f => exact ExtTreeMap.getElem?_map

end Write

theorem view_exec (he : Function.Injective e) (ws : List (Write ι α)) (t : ExtTreeMap κ α cmp) :
    view e (Run.exec (Write.onTable e) ws t) = Run.exec Write.onView ws (view e t) := by
  induction ws generalizing t with
  | nil => rfl
  | cons w ws ih => rw [Run.exec_cons, ih, w.view_onTable he, Run.exec_cons]

end EncodedKeys
